import Mathlib.Algebra.BigOperators.Ring.List
import Mathlib.Algebra.Ring.Nat
import Mathlib.Data.List.Forall2
import Mathlib.Data.List.Induction
import Mathlib.Tactic.Common

/-! Entries packed one at a time into batches of a size. A batch is closed once it has the size, and
what waits at the end is the last batch. A size of zero acts as one. -/

namespace ReleaseTracker
variable {α β : Type}

structure Packing (α : Type) where
  closed : List (List α)
  waiting : List α

namespace Packing

def empty : Packing α := ⟨[], []⟩

def add (size : Nat) (packing : Packing α) (a : α) : Packing α :=
  if size ≤ (packing.waiting ++ [a]).length then ⟨packing.closed ++ [packing.waiting ++ [a]], []⟩
  else ⟨packing.closed, packing.waiting ++ [a]⟩

def batches (packing : Packing α) : List (List α) :=
  match packing.waiting with
  | [] => packing.closed
  | waiting => packing.closed ++ [waiting]

theorem batches_of_waiting {packing : Packing α} (h : packing.waiting ≠ []) :
    packing.batches = packing.closed ++ [packing.waiting] := by
  unfold batches
  split
  · exact absurd ‹_› h
  · rfl

theorem batches_of_none {packing : Packing α} (h : packing.waiting = []) :
    packing.batches = packing.closed := by
  unfold batches
  rw [h]

def Related (R : α → β → Prop) (packing : Packing α) (packing' : Packing β) : Prop :=
  List.Forall₂ (List.Forall₂ R) packing.closed packing'.closed ∧
    List.Forall₂ R packing.waiting packing'.waiting

theorem Related.add {R : α → β → Prop} {packing : Packing α} {packing' : Packing β}
    (h : Related R packing packing') (size : Nat) {a : α} {b : β} (hab : R a b) :
    Related R (packing.add size a) (packing'.add size b) := by
  have hwaiting : List.Forall₂ R (packing.waiting ++ [a]) (packing'.waiting ++ [b]) :=
    List.rel_append h.2 (.cons hab .nil)
  unfold Packing.add
  rw [hwaiting.length_eq]
  split
  · exact ⟨List.rel_append h.1 (.cons hwaiting .nil), .nil⟩
  · exact ⟨h.1, hwaiting⟩

theorem Related.batches {R : α → β → Prop} {packing : Packing α} {packing' : Packing β}
    (h : Related R packing packing') :
    List.Forall₂ (List.Forall₂ R) packing.batches packing'.batches := by
  by_cases hnone : packing.waiting = []
  · have hnone' : packing'.waiting = [] := by
      rw [← List.length_eq_zero_iff, ← h.2.length_eq, hnone, List.length_nil]
    rw [batches_of_none hnone, batches_of_none hnone']
    exact h.1
  · have hsome' : packing'.waiting ≠ [] := by
      rw [← List.length_pos_iff, ← h.2.length_eq, List.length_pos_iff]
      exact hnone
    rw [batches_of_waiting hnone, batches_of_waiting hsome']
    exact List.rel_append h.1 (.cons h.2 .nil)

end Packing

def pack (size : Nat) (xs : List α) : Packing α := xs.foldl (Packing.add size) .empty

variable {size : Nat} {xs : List α} {batch : List α}

theorem pack_append_singleton (size : Nat) (xs : List α) (a : α) :
    pack size (xs ++ [a]) = (pack size xs).add size a := by
  simp only [pack, List.foldl_append, List.foldl_cons, List.foldl_nil]

theorem pack_related {R : α → β → Prop} {ys : List β} (h : List.Forall₂ R xs ys) :
    (pack size xs).Related R (pack size ys) := by
  have hstep : Relator.LiftFun (Packing.Related R) (Relator.LiftFun R (Packing.Related R))
      (Packing.add size) (Packing.add size) :=
    fun _ _ hpacking _ _ hab => hpacking.add size hab
  exact List.rel_foldl hstep ⟨.nil, .nil⟩ h

theorem pack_entries (size : Nat) (xs : List α) :
    (pack size xs).closed.flatten ++ (pack size xs).waiting = xs := by
  induction xs using List.reverseRecOn with
  | nil => rfl
  | append_singleton xs a ih =>
    rw [pack_append_singleton, Packing.add]
    conv_rhs => rw [← ih]
    split <;> simp

theorem length_waiting_lt (size : Nat) (xs : List α) :
    (pack size xs).waiting.length < max 1 size := by
  have hpos : 0 < max 1 size := by omega
  induction xs using List.reverseRecOn with
  | nil => exact hpos
  | append_singleton xs a _ =>
    rw [pack_append_singleton, Packing.add, List.length_append, List.length_singleton]
    split
    · exact hpos
    · rw [List.length_append, List.length_singleton]
      omega

theorem length_of_mem_closed (h : batch ∈ (pack size xs).closed) : batch.length = max 1 size := by
  induction xs using List.reverseRecOn with
  | nil => cases h
  | append_singleton xs a ih =>
    have hwaiting := length_waiting_lt size xs
    rw [pack_append_singleton, Packing.add, List.length_append, List.length_singleton] at h
    split at h
    · rcases List.mem_append.mp h with h | h
      · exact ih h
      · rw [List.mem_singleton.mp h, List.length_append, List.length_singleton]
        omega
    · exact ih h

theorem dvd_length_closed (size : Nat) (xs : List α) :
    max 1 size ∣ (pack size xs).closed.flatten.length := by
  rw [List.length_flatten]
  apply List.dvd_sum
  intro length hlength
  obtain ⟨batch, hbatch, rfl⟩ := List.mem_map.mp hlength
  rw [length_of_mem_closed hbatch]

/-! The batches as a whole -/

theorem flatten_batches (size : Nat) (xs : List α) : (pack size xs).batches.flatten = xs := by
  conv_rhs => rw [← pack_entries size xs]
  by_cases hnone : (pack size xs).waiting = []
  · rw [Packing.batches_of_none hnone, hnone, List.append_nil]
  · rw [Packing.batches_of_waiting hnone, List.flatten_append, List.flatten_singleton]

theorem length_of_mem_batches (h : batch ∈ (pack size xs).batches) :
    1 ≤ batch.length ∧ batch.length ≤ max 1 size := by
  have hclosed (hmem : batch ∈ (pack size xs).closed) :
      1 ≤ batch.length ∧ batch.length ≤ max 1 size := by
    rw [length_of_mem_closed hmem]
    exact ⟨Nat.le_max_left 1 size, Nat.le_refl _⟩
  by_cases hnone : (pack size xs).waiting = []
  · rw [Packing.batches_of_none hnone] at h
    exact hclosed h
  · rw [Packing.batches_of_waiting hnone] at h
    rcases List.mem_append.mp h with h | h
    · exact hclosed h
    · rw [List.mem_singleton.mp h]
      exact ⟨List.length_pos_iff.mpr hnone, Nat.le_of_lt (length_waiting_lt size xs)⟩

theorem length_of_mem_dropLast_batches (h : batch ∈ (pack size xs).batches.dropLast) :
    batch.length = max 1 size := by
  have hclosed : batch ∈ (pack size xs).closed := by
    by_cases hnone : (pack size xs).waiting = []
    · rw [Packing.batches_of_none hnone] at h
      exact (List.dropLast_sublist _).mem h
    · rwa [Packing.batches_of_waiting hnone, List.dropLast_concat] at h
  exact length_of_mem_closed hclosed

structure WellSized (size : Nat) (batches : List (List α)) : Prop where
  full : ∀ batch ∈ batches.dropLast, batch.length = max 1 size
  bounded : ∀ batch ∈ batches, 1 ≤ batch.length ∧ batch.length ≤ max 1 size

theorem pack_wellSized (size : Nat) (xs : List α) : WellSized size (pack size xs).batches :=
  ⟨fun _ h => length_of_mem_dropLast_batches h, fun _ h => length_of_mem_batches h⟩

end ReleaseTracker
