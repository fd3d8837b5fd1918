import Mathlib.Data.List.GetD
import Mathlib.Data.Nat.Notation
import Mathlib.Logic.Function.Basic

/-!
# Memory With Bounds

A memory of `size` cells and the accesses to it, checked one cell at a time: an access at
`size` or above is a fault. The accesses are written as the loops that make them, over an
arbitrary type of cells, and a fault anywhere makes the whole access `none`.

## Main results

* `loadRange_eq`, `storeRange_eq`: a range inside the memory is loaded and stored without a
  fault, and what the loop makes of it.
* `scan_eq`: a search that stops inside the memory.
-/

namespace BoundedMemory

variable {β : Type} (size : ℕ) (cells : ℕ → β)

/-- One cell. -/
def load (address : ℕ) : Option β :=
  if address < size then some (cells address) else none

/-- `count` cells, one after the other. -/
def loadRange (address : ℕ) : ℕ → Option (List β)
  | 0 => some []
  | count + 1 =>
    match load size cells address with
    | none => none
    | some x => (loadRange (address + 1) count).map (x :: ·)

/-- The cells after a list was stored, one element after the other. -/
def storeRange (cells : ℕ → β) (address : ℕ) : List β → Option (ℕ → β)
  | [] => some cells
  | x :: xs =>
    if address < size then storeRange (Function.update cells address x) (address + 1) xs
    else none

/-- The first of `count` cells that meets `p`, as its distance from the first address, counted
from `distance` on. -/
def scan (p : β → Bool) (address distance : ℕ) : ℕ → Option (Option ℕ)
  | 0 => some none
  | count + 1 =>
    match load size cells (address + distance) with
    | none => none
    | some x => if p x then some (some distance) else scan p address (distance + 1) count

variable {size cells}

/-- A cell below the size. -/
theorem load_eq {address : ℕ} (h : address < size) :
    load size cells address = some (cells address) :=
  if_pos h

/-- **Loading.** A range inside the memory is its cells. -/
theorem loadRange_eq {count : ℕ} {address : ℕ} (h : count = 0 ∨ address + count ≤ size) :
    loadRange size cells address count =
      some ((List.range count).map fun k => cells (address + k)) := by
  induction count generalizing address with
  | zero => rfl
  | succ count ih =>
      have hlast : address + (count + 1) ≤ size := by omega
      rw [loadRange, load_eq (by omega)]
      dsimp only
      rw [ih (.inr (by omega)), Option.map_some, List.range_succ_eq_map, List.map_cons,
        List.map_map]
      simp only [Function.comp_def, Nat.add_zero, Nat.succ_eq_add_one, Nat.add_assoc,
        Nat.add_comm 1]

/-- **Storing.** A list stored inside the memory replaces the cells of its range. -/
theorem storeRange_eq {data : List β} {address : ℕ}
    (h : data = [] ∨ address + data.length ≤ size) :
    storeRange size cells address data =
      some fun k => if address ≤ k then data.getD (k - address) (cells k) else cells k := by
  induction data generalizing address cells with
  | nil => simp [storeRange]
  | cons x data ih =>
      have hlast : address + (data.length + 1) ≤ size := by
        simpa using h
      rw [storeRange, if_pos (by omega), ih (.inr (by omega))]
      refine congrArg some (funext fun k => ?_)
      rcases Nat.lt_trichotomy k address with hk | rfl | hk
      · rw [if_neg (by omega), if_neg (by omega), Function.update_of_ne (by omega)]
      · rw [if_neg (by omega), if_pos (Nat.le_refl k), Function.update_self, Nat.sub_self,
          List.getD_cons_zero]
      · rw [if_pos (by omega), if_pos (by omega), Function.update_of_ne (by omega),
          show k - address = (k - (address + 1)) + 1 by omega, List.getD_cons_succ]

/-- **Searching.** A search over cells inside the memory finds what is there. -/
theorem scan_eq {p : β → Bool} {address distance count : ℕ}
    (h : count = 0 ∨ address + distance + count ≤ size) :
    scan size cells p address distance count =
      some (((List.range count).find? fun k => p (cells (address + distance + k))).map
        (distance + ·)) := by
  induction count generalizing distance with
  | zero => rfl
  | succ count ih =>
      have hlast : address + distance + (count + 1) ≤ size := by omega
      rw [scan, load_eq (by omega), List.range_succ_eq_map, List.find?_cons, Nat.add_zero]
      dsimp only
      cases p (cells (address + distance)) with
      | true => rfl
      | false =>
          simp only [Bool.false_eq_true, if_false]
          rw [ih (.inr (by omega)), List.find?_map, Option.map_map]
          simp only [Function.comp_def, Nat.succ_eq_add_one, Nat.add_assoc, Nat.add_comm 1]

end BoundedMemory
