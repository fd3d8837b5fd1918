import KvmHypervisor.Threads
import Mathlib.Data.Fintype.Fin
import Mathlib.Data.List.NodupEquivFin

/-!
# The History of a Run

What has happened, as opposed to what the records remember. A `History` is the list of
accepted handler calls of a run with the VM that made each, newest first. The functions of
this module say what a history means without looking at any record of the program: which
bytes the writer has sent in its current round, which generation was published last and
with which payload, who has acknowledged it since, and what each reader has obtained.
Properties of the shared buffer are stated against these functions.
-/

namespace KvmHypervisor

/-- The accepted handler calls of a run, newest first. -/
abbrev History (n : ℕ) := List (Fin (n + 1) × Call)

variable {n : ℕ}

/-- The handler call an event stands for, if it is one. -/
def Event.call? : Event n → Option (Fin (n + 1) × Call)
  | .call i c => some (i, c)
  | _ => none

/-- The history of a trace: its `call` events. -/
def history (tr : List (Event n)) : History n :=
  tr.filterMap Event.call?

@[simp] theorem history_nil : history ([] : List (Event n)) = [] := rfl

@[simp] theorem history_call (i : Fin (n + 1)) (c : Call) (tr : List (Event n)) :
    history (.call i c :: tr) = (i, c) :: history tr := rfl

theorem history_quiet {e : Event n} (hq : e.Quiet) (tr : List (Event n)) :
    history (e :: tr) = history tr := by
  cases e with
  | call i c => exact absurd rfl (hq i c)
  | _ => rfl

/-! ### The writer's side -/

/-- The bytes the writer has sent since it last started a round, oldest first. -/
def sentBytes : History n → List UInt8
  | [] => []
  | (_, .beginWriterRound _ _) :: _ => []
  | (_, .writeSharedByte value _) :: h => sentBytes h ++ [value]
  | _ :: h => sentBytes h

/-- How many generations have been published. -/
def publications : History n → ℕ
  | [] => 0
  | (_, c) :: h => publications h + (if c.published.isSome then 1 else 0)

/-- The generation published last, with all bytes the writer sent in its round. -/
def publishedRound : History n → Option (ℕ × List UInt8)
  | [] => none
  | (i, c) :: h =>
    match c.published with
    | some generation => some (generation, sentBytes ((i, c) :: h))
    | none => publishedRound h

theorem publications_append (h h' : History n) :
    publications (h ++ h') = publications h + publications h' := by
  induction h with
  | nil => simp [publications]
  | cons x h ih =>
      simp only [List.cons_append, publications, ih]
      omega

/-- A round can have been published only if something has been. -/
theorem publications_pos_of_publishedRound {h : History n} {x : ℕ × List UInt8}
    (hx : publishedRound h = some x) : 0 < publications h := by
  induction h with
  | nil => cases hx
  | cons y h ih =>
      obtain ⟨i, c⟩ := y
      cases hc : c.published with
      | none =>
          simp only [publishedRound, hc] at hx
          simp [publications, hc, ih hx]
      | some g => simp [publications, hc]

/-- The counts the writer has read from the status port, oldest first. -/
def writerCounts : History n → List ℕ
  | [] => []
  | (_, .finishWriterRound _ count) :: h => writerCounts h ++ [count]
  | _ :: h => writerCounts h

/-! ### The readers' side -/

/-- The acknowledgments given since the last publication, newest first: who gave each, and
for which generation. -/
def acknowledgments : History n → List (Fin (n + 1) × ℕ)
  | [] => []
  | (i, .finishReaderRound generation _) :: h => (i, generation) :: acknowledgments h
  | (_, c) :: h => if c.published.isSome then [] else acknowledgments h

/-- The round VM `i` has open: the generation and the size it obtained by the last
successful `beginReaderRound` it has not acknowledged yet. -/
def openRound (i : Fin (n + 1)) : History n → Option (ℕ × ℕ)
  | [] => none
  | (j, .beginReaderRound generation count) :: h =>
    if j = i then some (generation, count) else openRound i h
  | (j, .finishReaderRound _ _) :: h => if j = i then none else openRound i h
  | _ :: h => openRound i h

/-- The bytes VM `i` has read since its last successful `beginReaderRound`, oldest
first. -/
def obtainedBytes (i : Fin (n + 1)) : History n → List UInt8
  | [] => []
  | (j, .beginReaderRound _ _) :: h => if j = i then [] else obtainedBytes i h
  | (j, .readSharedByte value) :: h =>
    if j = i then obtainedBytes i h ++ [value] else obtainedBytes i h
  | _ :: h => obtainedBytes i h

/-- The rounds VM `i` has completed, oldest first: the generation and the size it was told
when it began each, and the bytes it read between that answer and its acknowledgment. -/
def completedRounds (i : Fin (n + 1)) : History n → List (Option (ℕ × ℕ) × List UInt8)
  | [] => []
  | (j, .finishReaderRound _ _) :: h =>
    if j = i then completedRounds i h ++ [(openRound i h, obtainedBytes i h)]
    else completedRounds i h
  | _ :: h => completedRounds i h

/-- The reader VMs. -/
def readers (n : ℕ) : List (Fin (n + 1)) :=
  (List.finRange (n + 1)).filter (· ≠ ⟨0, n.succ_pos⟩)

theorem mem_readers {i : Fin (n + 1)} : i ∈ readers n ↔ i ≠ 0 := by
  rw [readers, List.mem_filter, decide_eq_true_eq]
  exact ⟨fun h => h.2, fun h => ⟨List.mem_finRange i, h⟩⟩

theorem nodup_readers (n : ℕ) : (readers n).Nodup :=
  (List.nodup_finRange _).filter _

theorem length_readers (n : ℕ) : (readers n).length = n := by
  rw [readers, List.finRange_succ, List.filter_cons_of_neg (by simp), List.filter_eq_self.mpr]
  · simp
  · intro i hi
    obtain ⟨j, -, rfl⟩ := List.mem_map.mp hi
    exact decide_eq_true j.succ_ne_zero

/-- Distinct acknowledgments of readers for one generation are among those of all
readers. -/
theorem subperm_readers {g : ℕ} {acks : List (Fin (n + 1) × ℕ)} (hnodup : acks.Nodup)
    (hmem : ∀ a ∈ acks, a.1 ≠ 0 ∧ a.2 = g) : acks.Subperm ((readers n).map (·, g)) := by
  refine List.subperm_of_subset hnodup ?_
  rintro ⟨i, g'⟩ ha
  obtain ⟨hi, hg⟩ := hmem _ ha
  exact List.mem_map.mpr ⟨i, mem_readers.mpr hi, by rw [← hg]⟩

/-- As many distinct acknowledgments of one generation as there are readers come from each
reader exactly once. -/
theorem perm_readers_of_length {g : ℕ} {acks : List (Fin (n + 1) × ℕ)} (hnodup : acks.Nodup)
    (hmem : ∀ a ∈ acks, a.1 ≠ 0 ∧ a.2 = g) (hlen : acks.length = n) :
    acks.Perm ((readers n).map (·, g)) := by
  refine (subperm_readers hnodup hmem).perm_of_length_le ?_
  rw [List.length_map, length_readers, hlen]

/-! ### Rounds of other VMs -/

theorem completedRounds_of_ne {i j : Fin (n + 1)} (h : j ≠ i) (c : Call) (hist : History n) :
    completedRounds i ((j, c) :: hist) = completedRounds i hist := by
  cases c <;> simp [completedRounds, h]

theorem obtainedBytes_of_ne {i j : Fin (n + 1)} (h : j ≠ i) (c : Call) (hist : History n) :
    obtainedBytes i ((j, c) :: hist) = obtainedBytes i hist := by
  cases c <;> simp [obtainedBytes, h]

end KvmHypervisor
