import Mathlib.Algebra.Group.Nat.Defs
import Mathlib.Data.Nat.Notation

/-!
# Four-Level Paging

Byte-addressed memory with 64-bit little-endian words, and the address translation of
x86-64 in long mode: four levels of tables of 512 entries, with 4 KiB pages, or 2 MiB and
1 GiB pages where an entry has its PS bit set. Memory is a function of the address; a list
of `Store`s is what a program does to it.

## Main results

* `read64_storeAll`: a word that some stores write and no other store disturbs.
* `storeAll_of_outside`: a byte outside all stores is left alone.
* `frame_add`: the address in an entry made of an aligned address and flags.
-/

namespace Paging

/-! ### Words in memory -/

/-- Physical memory. -/
abbrev Memory := ℕ → UInt8

/-- The number in `n` bytes from `a` on, least significant first. -/
def readBytes (mem : Memory) (a : ℕ) : ℕ → ℕ
  | 0 => 0
  | n + 1 => readBytes mem a n + 256 ^ n * (mem (a + n)).toNat

/-- A 64-bit load. -/
def read64 (mem : Memory) (a : ℕ) : ℕ :=
  readBytes mem a 8

/-- A 64-bit store. -/
def write64 (mem : Memory) (a v : ℕ) : Memory :=
  fun p => if a ≤ p ∧ p < a + 8 then UInt8.ofNat (v / 256 ^ (p - a)) else mem p

theorem readBytes_congr {mem mem' : Memory} {a n : ℕ} (h : ∀ k < n, mem (a + k) = mem' (a + k)) :
    readBytes mem a n = readBytes mem' a n := by
  induction n with
  | zero => rfl
  | succ n ih =>
      rw [readBytes, readBytes, ih fun k hk => h k (by omega), h n (by omega)]

/-- A load depends only on its eight bytes. -/
theorem read64_congr {mem mem' : Memory} {a : ℕ} (h : ∀ p, a ≤ p → p < a + 8 → mem p = mem' p) :
    read64 mem a = read64 mem' a :=
  readBytes_congr fun k hk => h (a + k) (by omega) (by omega)

theorem readBytes_write64 (mem : Memory) (a v : ℕ) {n : ℕ} (hn : n ≤ 8) :
    readBytes (write64 mem a v) a n = v % 256 ^ n := by
  induction n with
  | zero => simp [readBytes, Nat.mod_one]
  | succ n ih =>
      have hbyte : write64 mem a v (a + n) = UInt8.ofNat (v / 256 ^ n) := by
        rw [write64, if_pos ⟨by omega, by omega⟩, Nat.add_sub_cancel_left]
      rw [readBytes, ih (by omega), hbyte, UInt8.toNat_ofNat']
      exact Nat.mod_mul.symm

/-- A load of the word just stored. -/
theorem read64_write64 (mem : Memory) (a : ℕ) {v : ℕ} (hv : v < 2 ^ 64) :
    read64 (write64 mem a v) a = v := by
  rw [read64, readBytes_write64 mem a v (Nat.le_refl 8)]
  exact Nat.mod_eq_of_lt hv

/-- A load of a word the store does not touch. -/
theorem read64_write64_of_disjoint (mem : Memory) {a b : ℕ} (v : ℕ)
    (h : b + 8 ≤ a ∨ a + 8 ≤ b) : read64 (write64 mem a v) b = read64 mem b :=
  read64_congr fun p _ _ => if_neg (by omega)

/-! ### Sequences of stores -/

/-- A 64-bit store: its address and its value. -/
abbrev Store := ℕ × ℕ

/-- Carrying out stores in order. -/
def storeAll (mem : Memory) (stores : List Store) : Memory :=
  stores.foldl (fun mem s => write64 mem s.1 s.2) mem

/-- The word of the store does not overlap the word at `a`. -/
def Store.Misses (s : Store) (a : ℕ) : Prop :=
  a + 8 ≤ s.1 ∨ s.1 + 8 ≤ a

/-- A word no store touches. -/
theorem read64_storeAll_of_misses {mem : Memory} {stores : List Store} {a : ℕ}
    (h : ∀ s ∈ stores, Store.Misses s a) : read64 (storeAll mem stores) a = read64 mem a := by
  induction stores generalizing mem with
  | nil => rfl
  | cons s stores ih =>
      rw [storeAll, List.foldl_cons]
      refine (ih fun t ht => h t (List.mem_cons_of_mem _ ht)).trans ?_
      exact read64_write64_of_disjoint mem s.2 (h s (List.mem_cons_self ..))

/-- **A word the stores write**: the stores that touch it all store the same value there. -/
theorem read64_storeAll {mem : Memory} {stores : List Store} {a v : ℕ} (hv : v < 2 ^ 64)
    (hmem : (a, v) ∈ stores) (h : ∀ s ∈ stores, s = (a, v) ∨ Store.Misses s a) :
    read64 (storeAll mem stores) a = v := by
  induction stores generalizing mem with
  | nil => cases hmem
  | cons s stores ih =>
      have htail : ∀ t ∈ stores, t = (a, v) ∨ Store.Misses t a := fun t ht =>
        h t (List.mem_cons_of_mem _ ht)
      rw [storeAll, List.foldl_cons]
      by_cases hlater : (a, v) ∈ stores
      · exact ih hlater htail
      · -- The last store to the word is the first one.
        obtain rfl | hmem := List.mem_cons.mp hmem
        · have hmiss : ∀ t ∈ stores, Store.Misses t a := fun t ht => by
            obtain rfl | hmiss := htail t ht
            · exact absurd ht hlater
            · exact hmiss
          exact (read64_storeAll_of_misses hmiss).trans (read64_write64 mem a hv)
        · exact absurd hmem hlater

/-- A byte outside all stores is left alone. -/
theorem storeAll_of_outside {mem : Memory} {stores : List Store} {p : ℕ}
    (h : ∀ s ∈ stores, p < s.1 ∨ s.1 + 8 ≤ p) : storeAll mem stores p = mem p := by
  induction stores generalizing mem with
  | nil => rfl
  | cons s stores ih =>
      rw [storeAll, List.foldl_cons]
      refine (ih fun t ht => h t (List.mem_cons_of_mem _ ht)).trans (if_neg ?_)
      have := h s (List.mem_cons_self ..)
      omega

/-! ### The translation -/

/-- A virtual address whose upper bits repeat bit 47. -/
def Canonical (va : ℕ) : Prop :=
  va < 2 ^ 47 ∨ (2 ^ 64 - 2 ^ 47 ≤ va ∧ va < 2 ^ 64)

instance (va : ℕ) : Decidable (Canonical va) :=
  inferInstanceAs (Decidable (_ ∨ _))

/-- The P bit of an entry. -/
def present (entry : ℕ) : Bool :=
  decide (entry % 2 = 1)

/-- The R/W bit of an entry. -/
def writable (entry : ℕ) : Bool :=
  decide (entry / 2 % 2 = 1)

/-- The U/S bit of an entry. -/
def userAccess (entry : ℕ) : Bool :=
  decide (entry / 4 % 2 = 1)

/-- The PS bit of an entry. -/
def pageSize (entry : ℕ) : Bool :=
  decide (entry / 128 % 2 = 1)

/-- The physical address in an entry for a region of `2 ^ shift` bytes: bits `shift` to 51. -/
def frame (shift entry : ℕ) : ℕ :=
  entry / 2 ^ shift % 2 ^ (52 - shift) * 2 ^ shift

/-- The index into a table whose entries cover `2 ^ shift` bytes each. -/
def tableIndex (shift va : ℕ) : ℕ :=
  va / 2 ^ shift % 512

/-- Where a virtual address is mapped, and with which rights. -/
structure Translation where
  physical : ℕ
  writable : Bool
  user : Bool
deriving DecidableEq

/-- The translation by an entry that maps a page of `2 ^ shift` bytes, below the entries
`above`. -/
def mapPage (shift entry va : ℕ) (above : List ℕ) : Translation where
  physical := frame shift entry + va % 2 ^ shift
  writable := (entry :: above).all Paging.writable
  user := (entry :: above).all userAccess

/-- **The walk**: from the table CR3 points to down to the entry that maps the page. The page
is not present if an entry on the way is not. -/
def walk (mem : Memory) (cr3 va : ℕ) : Option Translation :=
  let pml4e := read64 mem (frame 12 cr3 + 8 * tableIndex 39 va)
  if present pml4e then
    let pdpte := read64 mem (frame 12 pml4e + 8 * tableIndex 30 va)
    if present pdpte then
      if pageSize pdpte then some (mapPage 30 pdpte va [pml4e])
      else
        let pde := read64 mem (frame 12 pdpte + 8 * tableIndex 21 va)
        if present pde then
          if pageSize pde then some (mapPage 21 pde va [pdpte, pml4e])
          else
            let pte := read64 mem (frame 12 pde + 8 * tableIndex 12 va)
            if present pte then some (mapPage 12 pte va [pde, pdpte, pml4e]) else none
        else none
    else none
  else none

/-- The translation of a virtual address; an address that is not canonical has none. -/
def translate (mem : Memory) (cr3 va : ℕ) : Option Translation :=
  if Canonical va then walk mem cr3 va else none

/-- What `frame` makes of an entry with flags in its low bits. -/
theorem frame_add {shift k flags : ℕ} (hk : k < 2 ^ (52 - shift))
    (hflags : flags < 2 ^ shift) : frame shift (2 ^ shift * k + flags) = 2 ^ shift * k := by
  rw [frame, Nat.mul_add_div (Nat.two_pow_pos shift), Nat.div_eq_of_lt hflags, Nat.add_zero,
    Nat.mod_eq_of_lt hk, Nat.mul_comm]

end Paging
