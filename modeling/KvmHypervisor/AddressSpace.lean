import KvmHypervisor.CommandLine
import KvmHypervisor.Paging

/-!
# The Initial Address Space

`setup_long_mode` and `load_guest_image` of `vm.c`: the page tables the host writes into
guest memory below `GUEST_START_ADDR`, for either page size, and the image it loads at that
address. The tables are written by 64-bit stores in the order of the source; guest memory
is a function of the address, of which the first `memSize` bytes are mapped.

`mem_longModeStores` says which stores there are. From it every entry the walk can meet is
read off: the few that are written (`Tables`), and zero for all others.

## Main results

* `Tables.translate`: memory that holds the tables maps the guest memory to itself and
  nothing else.
* `initial_address_space`: so it is after loading any accepted image, for every accepted
  command line, and both page sizes translate alike.
-/

open Paging

namespace KvmHypervisor

/-! ### Constants -/

/-- `GUEST_START_ADDR`. -/
def guestStartAddr : ℕ := 0x8000

/-- `PAGE_TABLE_ENTRIES`. -/
def pageTableEntries : ℕ := 512

/-- `PDE64_PRESENT`. -/
def pde64Present : ℕ := 1 <<< 0

/-- `PDE64_RW`. -/
def pde64Rw : ℕ := 1 <<< 1

/-- `PDE64_USER`. -/
def pde64User : ℕ := 1 <<< 2

/-- `PDE64_PS`. -/
def pde64Ps : ℕ := 1 <<< 7

/-- `CR0_PE`. -/
def cr0Pe : ℕ := 1 <<< 0

/-- `CR0_PG`. -/
def cr0Pg : ℕ := 1 <<< 31

/-- `CR4_PAE`. -/
def cr4Pae : ℕ := 1 <<< 5

/-- `EFER_LME`. -/
def eferLme : ℕ := 1 <<< 8

/-- `EFER_LMA`. -/
def eferLma : ℕ := 1 <<< 10

/-- The address of the PML4, `pml4_addr`. -/
def pml4Addr : ℕ := 0x1000

/-- The address of the PDPT, `pdpt_addr`. -/
def pdptAddr : ℕ := 0x2000

/-- The address of the page directory, `pd_addr`. -/
def pdAddr : ℕ := 0x3000

/-- The address of the first 4 KiB page table. -/
def ptAddr : ℕ := 0x4000

/-! ### The set-up of a VM -/

/-- `struct vm`, without the descriptors and the run mapping: guest memory and its size. -/
structure Vm where
  mem : Memory
  memSize : ℕ

/-- The fields of `struct kvm_segment` that are set. -/
structure KvmSegment where
  base : ℕ
  limit : ℕ
  present : ℕ
  type : ℕ
  dpl : ℕ
  db : ℕ
  s : ℕ
  l : ℕ
  g : ℕ
deriving Inhabited

/-- The fields of `struct kvm_sregs` that are set. -/
structure KvmSregs where
  cs : KvmSegment
  ds : KvmSegment
  es : KvmSegment
  fs : KvmSegment
  gs : KvmSegment
  ss : KvmSegment
  cr0 : ℕ
  cr3 : ℕ
  cr4 : ℕ
  efer : ℕ
deriving Inhabited

/-- `setup_segments_64`. -/
def setupSegments64 (sregs : KvmSregs) : KvmSregs :=
  let code : KvmSegment :=
    { base := 0, limit := 0xffffffff, present := 1, type := 11, dpl := 0, db := 0, s := 1,
      l := 1, g := 1 }
  let data : KvmSegment := { code with type := 3, l := 0 }
  { sregs with cs := code, ds := data, es := data, fs := data, gs := data, ss := data }

/-- `setup_page_tables_4k`: the stores of its two loops. -/
def setupPageTables4k (memSize pd : ℕ) : List Store :=
  let pageTableCount := memSize / pageSize2M
  (List.range pageTableCount).flatMap fun pdIndex =>
    let pt := ptAddr + pdIndex * pageSize4K
    (pd + 8 * pdIndex, pt ||| pde64Present ||| pde64Rw ||| pde64User) ::
      (List.range pageTableEntries).map fun ptIndex =>
        let guestAddr := (pdIndex * pageTableEntries + ptIndex) * pageSize4K
        (pt + 8 * ptIndex, guestAddr ||| pde64Present ||| pde64Rw ||| pde64User)

/-- `setup_page_tables_2m`: the stores of its loop. -/
def setupPageTables2m (memSize pd : ℕ) : List Store :=
  let pageCount := memSize / pageSize2M
  (List.range pageCount).map fun i =>
    let guestAddr := i * pageSize2M
    (pd + 8 * i, guestAddr ||| pde64Present ||| pde64Rw ||| pde64User ||| pde64Ps)

/-- The stores of `setup_long_mode`. -/
def longModeStores (memSize pageSize : ℕ) : List Store :=
  (pml4Addr, pde64Present ||| pde64Rw ||| pde64User ||| pdptAddr) ::
    (pdptAddr, pde64Present ||| pde64Rw ||| pde64User ||| pdAddr) ::
      if pageSize = pageSize4K then setupPageTables4k memSize pdAddr
      else setupPageTables2m memSize pdAddr

/-- `setup_long_mode`. -/
def setupLongMode (v : Vm) (sregs : KvmSregs) (pageSize : ℕ) : Vm × KvmSregs :=
  ({ v with mem := storeAll v.mem (longModeStores v.memSize pageSize) },
    setupSegments64
      { sregs with
        cr3 := pml4Addr
        cr4 := cr4Pae
        cr0 := cr0Pe ||| cr0Pg
        efer := eferLme ||| eferLma })

/-- What the C library does with the image file: whether it can be opened and what is in it,
whether its size can be found out, and how many bytes `fread` delivers at most. -/
structure ImageFile where
  content : Option (List UInt8)
  seeks : Bool
  tells : Bool
  delivers : ℕ

/-- Consecutive bytes written to memory. -/
def writeBytes (mem : Memory) (a : ℕ) (bytes : List UInt8) : Memory :=
  fun p => if a ≤ p then bytes[p - a]?.getD (mem p) else mem p

/-- `load_guest_image`; `true` stands for the result `0`. The subtraction is one of
`uint64_t`. -/
def loadGuestImage (v : Vm) (image : ImageFile) (loadAddr : ℕ) : Bool × Vm :=
  match image.content with
  | none => (false, v)
  | some bytes =>
    if ¬image.seeks then (false, v)
    else if ¬image.tells then (false, v)
    else if bytes.length > (v.memSize + (2 ^ 64 - loadAddr)) % 2 ^ 64 then (false, v)
    else
      let delivered := bytes.take image.delivers
      let v := { v with mem := writeBytes v.mem loadAddr delivered }
      (decide (delivered.length = bytes.length), v)

/-! ### The stores -/

section Stores

variable {memSize pageSize : ℕ} {s : Store}

/-- An aligned address with the three flags of a table entry. -/
theorem or_flags (k : ℕ) :
    2 ^ 12 * k ||| pde64Present ||| pde64Rw ||| pde64User = 2 ^ 12 * k + 7 := by
  rw [Nat.or_assoc, Nat.or_assoc, Nat.two_pow_add_eq_or_of_lt (by decide)]
  rfl

/-- An aligned address with the four flags of a 2 MiB page. -/
theorem or_flags_ps (k : ℕ) :
    2 ^ 21 * k ||| pde64Present ||| pde64Rw ||| pde64User ||| pde64Ps = 2 ^ 21 * k + 135 := by
  rw [Nat.or_assoc, Nat.or_assoc, Nat.or_assoc, Nat.two_pow_add_eq_or_of_lt (by decide)]
  rfl

theorem mem_setupPageTables4k : s ∈ setupPageTables4k memSize pdAddr ↔
    ∃ i < memSize / pageSize2M, s = (0x3000 + 8 * i, 2 ^ 12 * (4 + i) + 7) ∨
      ∃ j < 512, s = (0x4000 + 4096 * i + 8 * j, 2 ^ 12 * (512 * i + j) + 7) := by
  have hpt : ∀ i, ptAddr + i * pageSize4K = 2 ^ 12 * (4 + i) := fun i => by
    simp only [ptAddr, pageSize4K]
    omega
  have hguest : ∀ i j, (i * pageTableEntries + j) * pageSize4K = 2 ^ 12 * (512 * i + j) :=
    fun i j => by
      simp only [pageTableEntries, pageSize4K]
      omega
  simp only [setupPageTables4k, List.mem_flatMap, List.mem_range, List.mem_cons, List.mem_map,
    hpt, hguest, or_flags]
  refine exists_congr fun i => and_congr_right fun _ => or_congr Iff.rfl ?_
  refine exists_congr fun j => and_congr Iff.rfl ?_
  rw [eq_comm, show 2 ^ 12 * (4 + i) + 8 * j = 0x4000 + 4096 * i + 8 * j by omega]

theorem mem_setupPageTables2m : s ∈ setupPageTables2m memSize pdAddr ↔
    ∃ i < memSize / pageSize2M, s = (0x3000 + 8 * i, 2 ^ 21 * i + 135) := by
  have hguest : ∀ i, i * pageSize2M = 2 ^ 21 * i := fun i => by
    simp only [pageSize2M]
    omega
  simp only [setupPageTables2m, List.mem_map, List.mem_range, hguest, or_flags_ps]
  refine exists_congr fun i => and_congr_right fun _ => ?_
  rw [eq_comm]
  rfl

/-- The entry for the 2 MiB region number `i` in the page directory. -/
def pdEntry (pageSize i : ℕ) : ℕ :=
  if pageSize = pageSize4K then 2 ^ 12 * (4 + i) + 7 else 2 ^ 21 * i + 135

/-- **Which stores `setup_long_mode` makes.** -/
theorem mem_longModeStores : s ∈ longModeStores memSize pageSize ↔
    s = (0x1000, 0x2007) ∨ s = (0x2000, 0x3007) ∨
      (∃ i < memSize / pageSize2M, s = (0x3000 + 8 * i, pdEntry pageSize i)) ∨
      (pageSize = pageSize4K ∧ ∃ i < memSize / pageSize2M, ∃ j < 512,
        s = (0x4000 + 4096 * i + 8 * j, 2 ^ 12 * (512 * i + j) + 7)) := by
  have hpml4 : ((pml4Addr, pde64Present ||| pde64Rw ||| pde64User ||| pdptAddr) : Store) =
      (0x1000, 0x2007) := by decide
  have hpdpt : ((pdptAddr, pde64Present ||| pde64Rw ||| pde64User ||| pdAddr) : Store) =
      (0x2000, 0x3007) := by decide
  rw [longModeStores, List.mem_cons, List.mem_cons, hpml4, hpdpt]
  refine or_congr Iff.rfl (or_congr Iff.rfl ?_)
  by_cases hsize : pageSize = pageSize4K
  · rw [if_pos hsize, mem_setupPageTables4k]
    simp only [pdEntry, hsize, if_true, true_and, and_or_left, exists_or]
  · rw [if_neg hsize, mem_setupPageTables2m]
    simp only [pdEntry, hsize, if_false, false_and, or_false]

/-- **No two stores overlap**: with at most four page tables, two stores are the same or miss
each other. -/
theorem stores_apart (hcount : memSize / pageSize2M ≤ 4) {t : Store}
    (hs : s ∈ longModeStores memSize pageSize) (ht : t ∈ longModeStores memSize pageSize) :
    s = t ∨ Store.Misses s t.1 := by
  rcases mem_longModeStores.mp hs with rfl | rfl | ⟨i, hi, rfl⟩ | ⟨-, i, hi, j, hj, rfl⟩ <;>
    rcases mem_longModeStores.mp ht with rfl | rfl | ⟨i', hi', rfl⟩ | ⟨-, i', hi', j', hj', rfl⟩
  case inr.inr.inl.inr.inr.inl =>
    obtain rfl | hne := eq_or_ne i i'
    · exact .inl rfl
    · right
      simp only [Store.Misses]
      omega
  case inr.inr.inr.inr.inr.inr =>
    by_cases hsame : i = i' ∧ j = j'
    · obtain ⟨rfl, rfl⟩ := hsame
      exact .inl rfl
    · right
      simp only [Store.Misses]
      omega
  case inl.inl | inr.inl.inr.inl => exact .inl rfl
  all_goals
    right
    simp only [Store.Misses]
    omega

end Stores

/-! ### The tables in memory -/

/-- Zeroed memory. -/
def zeroed : Memory := fun _ => 0

theorem read64_zeroed (a : ℕ) : read64 zeroed a = 0 := by
  simp [read64, readBytes, zeroed]

/-- The entries of the tables that map `count` regions of 2 MiB. -/
structure Tables (mem : Memory) (count pageSize : ℕ) : Prop where
  pml4 : ∀ k < 512, read64 mem (0x1000 + 8 * k) = if k = 0 then 0x2007 else 0
  pdpt : ∀ k < 512, read64 mem (0x2000 + 8 * k) = if k = 0 then 0x3007 else 0
  pd : ∀ k < 512, read64 mem (0x3000 + 8 * k) =
    if k < count then pdEntry pageSize k else 0
  pt : pageSize = pageSize4K → ∀ i < count, ∀ j < 512,
    read64 mem (0x4000 + 4096 * i + 8 * j) = 2 ^ 12 * (512 * i + j) + 7

section Tables

variable {memSize pageSize count : ℕ}

/-- The value a store leaves in memory. -/
theorem read64_of_mem (hcount : memSize / pageSize2M ≤ 4) {a v : ℕ} (hv : v < 2 ^ 64)
    (hmem : (a, v) ∈ longModeStores memSize pageSize) :
    read64 (storeAll zeroed (longModeStores memSize pageSize)) a = v :=
  read64_storeAll hv hmem fun _ hs => stores_apart hcount hs hmem

/-- A word below the image that no store touches is zero. -/
theorem read64_of_misses {a : ℕ} (hml4 : Store.Misses (0x1000, 0x2007) a)
    (hpdpt : Store.Misses (0x2000, 0x3007) a)
    (hpd : ∀ i < memSize / pageSize2M, Store.Misses (0x3000 + 8 * i, pdEntry pageSize i) a)
    (hpt : a + 8 ≤ 0x4000) :
    read64 (storeAll zeroed (longModeStores memSize pageSize)) a = 0 := by
  refine (read64_storeAll_of_misses fun s hs => ?_).trans (read64_zeroed a)
  rcases mem_longModeStores.mp hs with rfl | rfl | ⟨i, hi, rfl⟩ | ⟨-, i, hi, j, hj, rfl⟩
  · exact hml4
  · exact hpdpt
  · exact hpd i hi
  · exact .inl (by dsimp only; omega)

theorem pdEntry_lt (hcount : memSize / pageSize2M ≤ 4) {i : ℕ} (hi : i < memSize / pageSize2M) :
    pdEntry pageSize i < 2 ^ 64 := by
  unfold pdEntry
  split <;> omega

/-- **The stores fill the tables**, if there are at most four page tables. -/
theorem tables_longModeStores (hcount : memSize / pageSize2M ≤ 4) :
    Tables (storeAll zeroed (longModeStores memSize pageSize)) (memSize / pageSize2M)
      pageSize := by
  constructor
  case pml4 =>
    intro k hk
    split
    · next h0 =>
        subst h0
        exact read64_of_mem hcount (by omega) (mem_longModeStores.mpr (.inl rfl))
    · refine read64_of_misses ?_ ?_ (fun i hi => ?_) (by omega) <;>
        simp only [Store.Misses] <;> omega
  case pdpt =>
    intro k hk
    split
    · next h0 =>
        subst h0
        exact read64_of_mem hcount (by omega) (mem_longModeStores.mpr (.inr (.inl rfl)))
    · refine read64_of_misses ?_ ?_ (fun i hi => ?_) (by omega) <;>
        simp only [Store.Misses] <;> omega
  case pd =>
    intro k hk
    split
    · next hlt =>
        exact read64_of_mem hcount (pdEntry_lt hcount hlt)
          (mem_longModeStores.mpr (.inr (.inr (.inl ⟨k, hlt, rfl⟩))))
    · refine read64_of_misses ?_ ?_ (fun i hi => ?_) (by omega) <;>
        simp only [Store.Misses] <;> omega
  case pt =>
    intro hsize i hi j hj
    exact read64_of_mem hcount (by omega)
      (mem_longModeStores.mpr (.inr (.inr (.inr ⟨hsize, i, hi, j, hj, rfl⟩))))

/-- Tables in memory stay tables when nothing below the image changes. -/
theorem Tables.congr {mem mem' : Memory} (hT : Tables mem count pageSize) (hcount : count ≤ 4)
    (h : ∀ p < 0x8000, mem' p = mem p) : Tables mem' count pageSize where
  pml4 := fun k hk => (read64_congr fun p _ _ => h p (by omega)).trans (hT.pml4 k hk)
  pdpt := fun k hk => (read64_congr fun p _ _ => h p (by omega)).trans (hT.pdpt k hk)
  pd := fun k hk => (read64_congr fun p _ _ => h p (by omega)).trans (hT.pd k hk)
  pt := fun hp i hi j hj =>
    (read64_congr fun p _ _ => h p (by omega)).trans (hT.pt hp i hi j hj)

/-- The bits of an entry that points to a table or a 4 KiB page. -/
theorem table_flags (k : ℕ) : present (2 ^ 12 * k + 7) = true ∧
    Paging.pageSize (2 ^ 12 * k + 7) = false ∧
    writable (2 ^ 12 * k + 7) = true ∧ userAccess (2 ^ 12 * k + 7) = true := by
  simp only [present, Paging.pageSize, writable, userAccess, decide_eq_true_eq,
    decide_eq_false_iff_not]
  omega

/-- The bits of an entry that maps a 2 MiB page. -/
theorem page_flags (k : ℕ) : present (2 ^ 21 * k + 135) = true ∧
    Paging.pageSize (2 ^ 21 * k + 135) = true ∧
    writable (2 ^ 21 * k + 135) = true ∧ userAccess (2 ^ 21 * k + 135) = true := by
  simp only [present, Paging.pageSize, writable, userAccess, decide_eq_true_eq]
  omega

/-- The first two levels of the walk, for an address below 1 GiB. -/
theorem Tables.walk_low {mem : Memory} (hT : Tables mem count pageSize) {va : ℕ}
    (hva : va < 2 ^ 30) : walk mem pml4Addr va =
      let pde := read64 mem (0x3000 + 8 * tableIndex 21 va)
      if present pde then
        if Paging.pageSize pde then some (mapPage 21 pde va [0x3007, 0x2007])
        else
          let pte := read64 mem (frame 12 pde + 8 * tableIndex 12 va)
          if present pte then some (mapPage 12 pte va [pde, 0x3007, 0x2007]) else none
      else none := by
  have h39 : tableIndex 39 va = 0 := by
    unfold tableIndex
    omega
  have h30 : tableIndex 30 va = 0 := by
    unfold tableIndex
    omega
  have hpml4 : read64 mem (frame 12 pml4Addr + 8 * tableIndex 39 va) = 0x2007 := by
    rw [h39]
    exact hT.pml4 0 (by omega)
  have hpdpt : read64 mem (frame 12 0x2007 + 8 * tableIndex 30 va) = 0x3007 := by
    rw [h30]
    exact hT.pdpt 0 (by omega)
  unfold walk
  simp only [hpml4, hpdpt]
  rfl

/-- **Guest memory is mapped to itself**, readable, writable, and accessible in user mode. -/
theorem Tables.walk_mapped {mem : Memory} (hT : Tables mem count pageSize) (hcount : count ≤ 4)
    {va : ℕ} (hva : va < 2 ^ 21 * count) : walk mem pml4Addr va = some ⟨va, true, true⟩ := by
  rw [hT.walk_low (by omega)]
  have h21 : tableIndex 21 va = va / 2 ^ 21 := by
    unfold tableIndex
    omega
  have hlt : va / 2 ^ 21 < count := by omega
  have hpde : read64 mem (0x3000 + 8 * tableIndex 21 va) = pdEntry pageSize (va / 2 ^ 21) := by
    rw [h21, hT.pd _ (by omega), if_pos hlt]
  simp only [hpde]
  by_cases hsize : pageSize = pageSize4K
  · obtain ⟨hpresent, hps, hpdeRights⟩ := table_flags (4 + va / 2 ^ 21)
    obtain ⟨hpresent', -, hpteRights⟩ := table_flags (va / 2 ^ 12)
    have hentry : pdEntry pageSize (va / 2 ^ 21) = 2 ^ 12 * (4 + va / 2 ^ 21) + 7 := if_pos hsize
    have hframe : frame 12 (2 ^ 12 * (4 + va / 2 ^ 21) + 7) = 2 ^ 12 * (4 + va / 2 ^ 21) :=
      frame_add (by omega) (by omega)
    have hpte : read64 mem (2 ^ 12 * (4 + va / 2 ^ 21) + 8 * tableIndex 12 va) =
        2 ^ 12 * (va / 2 ^ 12) + 7 := by
      have haddr : 2 ^ 12 * (4 + va / 2 ^ 21) = 0x4000 + 4096 * (va / 2 ^ 21) := by omega
      rw [haddr, hT.pt hsize _ hlt _ (by unfold tableIndex; omega)]
      unfold tableIndex
      omega
    have hpage : frame 12 (2 ^ 12 * (va / 2 ^ 12) + 7) = 2 ^ 12 * (va / 2 ^ 12) :=
      frame_add (by omega) (by omega)
    simp only [hentry, hpresent, hps, hframe, hpte, hpresent', if_true, Bool.false_eq_true,
      if_false, mapPage, hpage, Nat.div_add_mod, List.all_cons, List.all_nil, hpdeRights,
      hpteRights]
    rfl
  · obtain ⟨hpresent, hps, hrights⟩ := page_flags (va / 2 ^ 21)
    have hentry : pdEntry pageSize (va / 2 ^ 21) = 2 ^ 21 * (va / 2 ^ 21) + 135 := if_neg hsize
    have hpage : frame 21 (2 ^ 21 * (va / 2 ^ 21) + 135) = 2 ^ 21 * (va / 2 ^ 21) :=
      frame_add (by omega) (by omega)
    simp only [hentry, hpresent, hps, if_true, mapPage, hpage, Nat.div_add_mod, List.all_cons,
      List.all_nil, hrights]
    rfl

/-- **Nothing else is mapped.** -/
theorem Tables.walk_unmapped {mem : Memory} (hT : Tables mem count pageSize)
    {va : ℕ} (hcanonical : Canonical va) (hva : 2 ^ 21 * count ≤ va) :
    walk mem pml4Addr va = none := by
  by_cases h39 : tableIndex 39 va = 0
  · by_cases h30 : tableIndex 30 va = 0
    · have hlow : va < 2 ^ 30 := by
        unfold Canonical at hcanonical
        unfold tableIndex at h39 h30
        omega
      have h21 : tableIndex 21 va = va / 2 ^ 21 := by
        unfold tableIndex
        omega
      have hpde : read64 mem (0x3000 + 8 * tableIndex 21 va) = 0 := by
        rw [h21, hT.pd _ (by omega), if_neg (by omega)]
      rw [hT.walk_low hlow]
      simp only [hpde]
      rfl
    · have hpml4 : read64 mem (frame 12 pml4Addr + 8 * tableIndex 39 va) = 0x2007 := by
        rw [h39]
        exact hT.pml4 0 (by omega)
      have hpdpt : read64 mem (frame 12 0x2007 + 8 * tableIndex 30 va) = 0 :=
        (hT.pdpt _ (Nat.mod_lt _ (by omega))).trans (if_neg h30)
      unfold walk
      simp only [hpml4, hpdpt]
      rfl
  · have hpml4 : read64 mem (frame 12 pml4Addr + 8 * tableIndex 39 va) = 0 :=
      (hT.pml4 _ (Nat.mod_lt _ (by omega))).trans (if_neg h39)
    unfold walk
    simp only [hpml4]
    rfl

end Tables

/-! ### The image -/

section Image

variable {mem : Memory} {a : ℕ} {bytes : List UInt8}

/-- The bytes written are in memory. -/
theorem writeBytes_of_lt {k : ℕ} (hk : k < bytes.length) :
    writeBytes mem a bytes (a + k) = bytes[k] := by
  rw [writeBytes, if_pos (by omega), Nat.add_sub_cancel_left, List.getElem?_eq_getElem hk,
    Option.getD_some]

/-- Everything else is as it was. -/
theorem writeBytes_of_outside {p : ℕ} (hp : p < a ∨ a + bytes.length ≤ p) :
    writeBytes mem a bytes p = mem p := by
  unfold writeBytes
  split
  · rw [List.getElem?_eq_none (by omega), Option.getD_none]
  · rfl

/-- **An image that is loaded** lies between the load address and the end of memory, and only
its bytes have changed. -/
theorem loadGuestImage_ok {v v' : Vm} {image : ImageFile} {loadAddr : ℕ}
    (hsize : v.memSize < 2 ^ 64) (haddr : loadAddr ≤ v.memSize)
    (h : loadGuestImage v image loadAddr = (true, v')) :
    ∃ bytes, image.content = some bytes ∧ loadAddr + bytes.length ≤ v.memSize ∧
      v' = { v with mem := writeBytes v.mem loadAddr bytes } := by
  unfold loadGuestImage at h
  cases hcontent : image.content with
  | none => simp [hcontent] at h
  | some bytes =>
      simp only [hcontent] at h
      split at h
      · cases h
      split at h
      · cases h
      split at h
      · cases h
      next hfits =>
        obtain ⟨hlength, rfl⟩ := Prod.mk.inj h
        have hlength := of_decide_eq_true hlength
        rw [List.length_take] at hlength
        have hall : bytes.take image.delivers = bytes := List.take_of_length_le (by omega)
        refine ⟨bytes, rfl, by omega, by rw [hall]⟩

end Image

/-! ### The address space at the first instruction -/

/-- The memory of a VM as `vm_init` maps it, set up for long mode. -/
def longModeVm (config : Config) (sregs : KvmSregs) : Vm × KvmSregs :=
  setupLongMode { mem := zeroed, memSize := config.memorySize } sregs config.pageSize

/-- The addresses of the page tables. -/
def tableAddrs (memSize pageSize : ℕ) : List ℕ :=
  [pml4Addr, pdptAddr, pdAddr] ++
    if pageSize = pageSize4K then
      (List.range (memSize / pageSize2M)).map fun pdIndex => ptAddr + pdIndex * pageSize4K
    else []

/-- **The initial address space**: what holds of the guest memory of `v` and of CR3 when an image
made of `bytes` has been loaded. -/
structure InitialAddressSpace (config : Config) (sregs : KvmSregs) (bytes : List UInt8)
    (v : Vm) : Prop where
  mapped : ∀ va, Canonical va → va < config.memorySize →
    Paging.translate v.mem (longModeVm config sregs).2.cr3 va = some ⟨va, true, true⟩
  unmapped : ∀ va, Canonical va → config.memorySize ≤ va →
    Paging.translate v.mem (longModeVm config sregs).2.cr3 va = none
  storesFit : ∀ s ∈ longModeStores config.memorySize config.pageSize,
    s.1 + 8 ≤ guestStartAddr ∧ s.1 + 8 ≤ config.memorySize
  storesInTables : ∀ s ∈ longModeStores config.memorySize config.pageSize,
    ∃ table ∈ tableAddrs config.memorySize config.pageSize,
      table ≤ s.1 ∧ s.1 + 8 ≤ table + pageSize4K
  tablesApart : (tableAddrs config.memorySize config.pageSize).Pairwise fun t u =>
    t + pageSize4K ≤ u
  fits : guestStartAddr + bytes.length ≤ config.memorySize
  loaded : ∀ (k : ℕ) (hk : k < bytes.length), v.mem (guestStartAddr + k) = bytes[k]
  unchanged : ∀ p, p < guestStartAddr ∨ guestStartAddr + bytes.length ≤ p →
    v.mem p = (longModeVm config sregs).1.mem p

/-- What an admitted memory size is made of: up to four regions of 2 MiB. -/
theorem AdmittedMemorySize.regions {size : ℕ} (h : AdmittedMemorySize size) :
    size = 2 ^ 21 * (size / pageSize2M) ∧ size / pageSize2M ≤ 4 ∧ 0 < size / pageSize2M := by
  rcases h with rfl | rfl | rfl <;> decide

/-- The tables stand one after the other. -/
theorem tableAddrs_apart (memSize pageSize : ℕ) :
    (tableAddrs memSize pageSize).Pairwise fun t u => t + pageSize4K ≤ u := by
  have hpts : ((List.range (memSize / pageSize2M)).map
      fun pdIndex => ptAddr + pdIndex * pageSize4K).Pairwise fun t u => t + pageSize4K ≤ u := by
    rw [List.pairwise_map]
    refine List.pairwise_lt_range.imp fun {i j} hij => ?_
    simp only [ptAddr, pageSize4K]
    omega
  unfold tableAddrs
  rw [List.pairwise_append]
  refine ⟨by decide, ?_, ?_⟩
  · split
    · exact hpts
    · exact .nil
  · intro t ht u hu
    split at hu
    · obtain ⟨i, -, rfl⟩ := List.mem_map.mp hu
      simp only [List.mem_cons, List.not_mem_nil, or_false, pml4Addr, pdptAddr, pdAddr] at ht
      simp only [ptAddr, pageSize4K]
      omega
    · cases hu

/-- Every store lies in one of the tables. -/
theorem store_in_table {memSize pageSize : ℕ} (hcount : memSize / pageSize2M ≤ 4) {s : Store}
    (hs : s ∈ longModeStores memSize pageSize) :
    ∃ table ∈ tableAddrs memSize pageSize, table ≤ s.1 ∧ s.1 + 8 ≤ table + pageSize4K := by
  unfold tableAddrs
  rcases mem_longModeStores.mp hs with rfl | rfl | ⟨i, hi, rfl⟩ | ⟨hsize, i, hi, j, hj, rfl⟩
  · exact ⟨pml4Addr, by simp, by decide, by decide⟩
  · exact ⟨pdptAddr, by simp, by decide, by decide⟩
  · refine ⟨pdAddr, by simp, ?_, ?_⟩ <;> simp only [pdAddr, pageSize4K] <;> omega
  · refine ⟨ptAddr + i * pageSize4K, ?_, ?_, ?_⟩
    · rw [if_pos hsize]
      refine List.mem_append_right _ (List.mem_map.mpr ⟨i, List.mem_range.mpr hi, rfl⟩)
    · simp only [ptAddr, pageSize4K]
      omega
    · simp only [ptAddr, pageSize4K]
      omega

/-- **The address space of one configuration**, with an admitted memory size. -/
theorem initialAddressSpace_of_load {config : Config} {sregs : KvmSregs} {image : ImageFile}
    {v : Vm} (hmemory : AdmittedMemorySize config.memorySize)
    (hload : loadGuestImage (longModeVm config sregs).1 image guestStartAddr = (true, v)) :
    ∃ bytes, image.content = some bytes ∧ InitialAddressSpace config sregs bytes v := by
  obtain ⟨hregions, hcount, hpos⟩ := hmemory.regions
  have hsize : (longModeVm config sregs).1.memSize = config.memorySize := rfl
  obtain ⟨bytes, hcontent, hfits, rfl⟩ := loadGuestImage_ok
    (by rw [hsize]; omega) (by rw [hsize, guestStartAddr]; omega) hload
  rw [hsize] at hfits
  have hbefore : Tables (longModeVm config sregs).1.mem (config.memorySize / pageSize2M)
      config.pageSize := tables_longModeStores hcount
  have hT : Tables (writeBytes (longModeVm config sregs).1.mem guestStartAddr bytes)
      (config.memorySize / pageSize2M) config.pageSize :=
    hbefore.congr hcount fun p hp => writeBytes_of_outside (.inl hp)
  refine ⟨bytes, hcontent, ?_⟩
  constructor
  case mapped =>
    intro va hcanonical hva
    rw [Paging.translate, if_pos hcanonical]
    exact hT.walk_mapped hcount (by omega)
  case unmapped =>
    intro va hcanonical hva
    rw [Paging.translate, if_pos hcanonical]
    exact hT.walk_unmapped hcanonical (by omega)
  case storesFit =>
    intro s hs
    have hbound : s.1 + 8 ≤ 0x8000 := by
      rcases mem_longModeStores.mp hs with rfl | rfl | ⟨i, hi, rfl⟩ | ⟨-, i, hi, j, hj, rfl⟩ <;>
        dsimp only <;> omega
    exact ⟨hbound, by omega⟩
  case storesInTables => exact fun s hs => store_in_table hcount hs
  case tablesApart => exact tableAddrs_apart _ _
  case fits => exact hfits
  case loaded => exact fun k hk => writeBytes_of_lt hk
  case unchanged => exact fun p hp => writeBytes_of_outside hp

/-- **The initial address space is the identity and does not depend on the page size**: for
every accepted command line and every image that is loaded, and for two configurations that
differ in the page size, whatever images they load. -/
theorem initial_address_space {program : String} {args : List String}
    (haccepted : (parseArguments program args).status = .ok) :
    (∀ (sregs : KvmSregs) (image : ImageFile) (v : Vm),
      loadGuestImage (longModeVm (parseArguments program args).config sregs).1 image
        guestStartAddr = (true, v) →
      ∃ bytes, image.content = some bytes ∧
        InitialAddressSpace (parseArguments program args).config sregs bytes v) ∧
    (∀ (program' : String) (args' : List String) (sregs sregs' : KvmSregs)
      (image image' : ImageFile) (v v' : Vm),
      (parseArguments program' args').status = .ok →
      (parseArguments program' args').config.memorySize =
        (parseArguments program args).config.memorySize →
      loadGuestImage (longModeVm (parseArguments program args).config sregs).1 image
        guestStartAddr = (true, v) →
      loadGuestImage (longModeVm (parseArguments program' args').config sregs').1 image'
        guestStartAddr = (true, v') →
      ∀ va, Paging.translate v.mem
          (longModeVm (parseArguments program args).config sregs).2.cr3 va =
        Paging.translate v'.mem
          (longModeVm (parseArguments program' args').config sregs').2.cr3 va) := by
  obtain ⟨hmemory, -⟩ := parseArguments_sizes haccepted
  constructor
  · intro sregs image v hload
    exact initialAddressSpace_of_load hmemory hload
  · intro program' args' sregs sregs' image image' v v' haccepted' hsame hload hload' va
    obtain ⟨hmemory', -⟩ := parseArguments_sizes haccepted'
    obtain ⟨bytes, -, hI⟩ := initialAddressSpace_of_load hmemory hload
    obtain ⟨bytes', -, hI'⟩ := initialAddressSpace_of_load hmemory' hload'
    by_cases hcanonical : Canonical va
    · by_cases hva : va < (parseArguments program args).config.memorySize
      · rw [hI.mapped va hcanonical hva, hI'.mapped va hcanonical (by omega)]
      · rw [hI.unmapped va hcanonical (by omega), hI'.unmapped va hcanonical (by omega)]
    · rw [Paging.translate, if_neg hcanonical, Paging.translate, if_neg hcanonical]

/-- The tightest case: 8 MiB of memory with 4 KiB pages, where the last page table ends where
the image starts. An image of one `hlt` instruction is loaded. -/
theorem initial_address_space_eightMiB : ∃ (sregs : KvmSregs) (config : Config) (v : Vm),
    config.memorySize = 8 * miB ∧ config.pageSize = pageSize4K ∧
      loadGuestImage (longModeVm config sregs).1 ⟨some [0xF4], true, true, 1⟩ guestStartAddr =
        (true, v) ∧ InitialAddressSpace config sregs [0xF4] v := by
  have haccepted : (parseArguments "kvm" ["-m", "8", "-p", "4", "-g", "guest.img"]).status =
      .ok := by decide +kernel
  have hconfig : (parseArguments "kvm" ["-m", "8", "-p", "4", "-g", "guest.img"]).config =
      ⟨8 * miB, pageSize4K, ["guest.img"], []⟩ := by decide +kernel
  obtain ⟨hspace, -⟩ := initial_address_space haccepted
  rw [hconfig] at hspace
  have hloads : ∀ v : Vm, v.memSize = 8 * miB → ∃ v',
      loadGuestImage v ⟨some [0xF4], true, true, 1⟩ guestStartAddr = (true, v') := by
    intro v hv
    refine ⟨{ v with mem := writeBytes v.mem guestStartAddr [0xF4] }, ?_⟩
    simp [loadGuestImage, hv, guestStartAddr, miB]
  obtain ⟨v, hload⟩ := hloads
    (longModeVm ⟨8 * miB, pageSize4K, ["guest.img"], []⟩ default).1 rfl
  obtain ⟨bytes, hbytes, hI⟩ := hspace default _ v hload
  cases hbytes
  exact ⟨default, _, v, rfl, rfl, hload, hI⟩

end KvmHypervisor
