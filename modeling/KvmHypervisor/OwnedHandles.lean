import Mathlib.Data.Finset.Erase
import Mathlib.Data.Finset.Insert
import Mathlib.Logic.Function.Basic

/-!
# Owned Handles

An authority hands out handles and takes them back; a handle it has taken back may be
handed out again. The clients keep what they hold in slots, of one client or of many. The
slots `Owns` the live handles when they hold exactly these, each in one slot.

A `Ledger` is the history of an authority that never hands out a live handle and is never
given one that is not live.

## Main results

* `Owns.acquire`, `Owns.release`: filling an empty slot and emptying a filled one.
* `Owns.live_eq_empty`: when all slots are empty no handle is live.
* `Ledger.count_eq`: a handle has been released as often as acquired, but for once if it is
  live.
-/

namespace OwnedHandles

variable {Slot Handle : Type} [DecidableEq Slot] [DecidableEq Handle]
variable {held : Slot → Option Handle} {live : Finset Handle} {k k' : Slot} {h : Handle}

/-- The slots hold the live handles, each handle in one slot, and nothing else. -/
structure Owns (held : Slot → Option Handle) (live : Finset Handle) : Prop where
  isLive : ∀ k h, held k = some h → h ∈ live
  covered : ∀ h, h ∈ live → ∃ k, held k = some h
  inj : ∀ k k' h, held k = some h → held k' = some h → k = k'

omit [DecidableEq Slot] [DecidableEq Handle] in
/-- Empty slots, no live handles. -/
theorem Owns.empty : Owns (fun _ : Slot => none) (∅ : Finset Handle) where
  isLive k h hk := by cases hk
  covered h hh := absurd hh (Finset.notMem_empty h)
  inj k k' h hk := by cases hk

/-- A fresh handle goes into an empty slot. -/
theorem Owns.acquire (ho : Owns held live) (hempty : held k = none) (hfresh : h ∉ live) :
    Owns (Function.update held k (some h)) (insert h live) := by
  refine ⟨?_, ?_, ?_⟩
  · intro k' h' hk'
    by_cases hkk : k' = k
    · subst hkk
      rw [Function.update_self, Option.some.injEq] at hk'
      exact hk' ▸ Finset.mem_insert_self ..
    · rw [Function.update_of_ne hkk] at hk'
      exact Finset.mem_insert_of_mem (ho.isLive k' h' hk')
  · intro h' hh'
    rcases Finset.mem_insert.mp hh' with rfl | hlive
    · exact ⟨k, Function.update_self ..⟩
    · obtain ⟨k', hk'⟩ := ho.covered h' hlive
      refine ⟨k', ?_⟩
      rw [Function.update_of_ne, hk']
      rintro rfl
      rw [hempty] at hk'
      cases hk'
  · -- the fresh handle is in no other slot
    have hother : ∀ k', k' ≠ k → held k' ≠ some h := fun k' _ hk' =>
      hfresh (ho.isLive k' h hk')
    intro k₁ k₂ h' h₁ h₂
    by_cases hk₁ : k₁ = k <;> by_cases hk₂ : k₂ = k
    · rw [hk₁, hk₂]
    · subst hk₁
      rw [Function.update_self, Option.some.injEq] at h₁
      rw [Function.update_of_ne hk₂, ← h₁] at h₂
      exact absurd h₂ (hother k₂ hk₂)
    · subst hk₂
      rw [Function.update_self, Option.some.injEq] at h₂
      rw [Function.update_of_ne hk₁, ← h₂] at h₁
      exact absurd h₁ (hother k₁ hk₁)
    · rw [Function.update_of_ne hk₁] at h₁
      rw [Function.update_of_ne hk₂] at h₂
      exact ho.inj k₁ k₂ h' h₁ h₂

/-- A slot gives back what it holds. -/
theorem Owns.release (ho : Owns held live) (hk : held k = some h) :
    Owns (Function.update held k none) (live.erase h) := by
  refine ⟨?_, ?_, ?_⟩
  · intro k' h' hk'
    by_cases hkk : k' = k
    · rw [hkk, Function.update_self] at hk'
      cases hk'
    · rw [Function.update_of_ne hkk] at hk'
      refine Finset.mem_erase.mpr ⟨?_, ho.isLive k' h' hk'⟩
      rintro rfl
      exact hkk (ho.inj k' k h' hk' hk)
  · intro h' hh'
    obtain ⟨hne, hlive⟩ := Finset.mem_erase.mp hh'
    obtain ⟨k', hk'⟩ := ho.covered h' hlive
    refine ⟨k', ?_⟩
    rw [Function.update_of_ne, hk']
    rintro rfl
    exact hne (Option.some.inj (hk'.symm.trans hk))
  · intro k₁ k₂ h' h₁ h₂
    by_cases hk₁ : k₁ = k
    · rw [hk₁, Function.update_self] at h₁
      cases h₁
    by_cases hk₂ : k₂ = k
    · rw [hk₂, Function.update_self] at h₂
      cases h₂
    rw [Function.update_of_ne hk₁] at h₁
    rw [Function.update_of_ne hk₂] at h₂
    exact ho.inj k₁ k₂ h' h₁ h₂

omit [DecidableEq Slot] [DecidableEq Handle] in
/-- **Nothing is left** when all slots are empty. -/
theorem Owns.live_eq_empty (ho : Owns held live) (hnone : ∀ k, held k = none) : live = ∅ := by
  refine Finset.eq_empty_of_forall_notMem fun h hh => ?_
  obtain ⟨k, hk⟩ := ho.covered h hh
  rw [hnone k] at hk
  cases hk

/-! ### Histories -/

/-- What the authority is asked for. -/
inductive Transaction (Handle : Type) where
  | acquire (h : Handle)
  | release (h : Handle)
deriving DecidableEq

/-- The live handles after a history, newest transaction first, in which no live handle was
handed out and only live ones were given back. -/
inductive Ledger : List (Transaction Handle) → Finset Handle → Prop
  | nil : Ledger [] ∅
  | acquire {txs : List (Transaction Handle)} {live : Finset Handle} {h : Handle} :
      Ledger txs live → h ∉ live → Ledger (.acquire h :: txs) (insert h live)
  | release {txs : List (Transaction Handle)} {live : Finset Handle} {h : Handle} :
      Ledger txs live → h ∈ live → Ledger (.release h :: txs) (live.erase h)

/-- **The balance of a handle.** -/
theorem Ledger.count_eq {txs : List (Transaction Handle)} (hL : Ledger txs live) (h : Handle) :
    txs.count (.acquire h) = txs.count (.release h) + if h ∈ live then 1 else 0 := by
  induction hL with
  | nil => rfl
  | @acquire txs live h' _ hfresh ih =>
      by_cases hh : h' = h
      · subst hh
        simp [ih, hfresh]
      · have hne : (Transaction.acquire h' == Transaction.acquire h) = false := by
          simpa using hh
        simp [List.count_cons, ih, hne, Ne.symm hh]
  | @release txs live h' _ hlive ih =>
      by_cases hh : h' = h
      · subst hh
        simp [ih, hlive]
      · have hne : (Transaction.release h' == Transaction.release h) = false := by
          simpa using hh
        simp [List.count_cons, ih, hne, Ne.symm hh]

end OwnedHandles
