import ArrayEngine.Parallel.Partition
import Mathlib.Algebra.Order.BigOperators.Group.List
import Mathlib.Algebra.Order.Group.Nat
import Mathlib.Algebra.Ring.Nat

/-!
# Chunks cover the work

`flatten_divide` says that the parts of a list that belong to the chunks of its indices, one
behind the other, are the list again, and `slice_ne_nil` that none of these parts is empty, so that
no worker is started for nothing. `forall_le_length_iff` says how long the chunks are: all of them
reach a length if the total is enough for as many chunks of it.
-/

namespace ArrayEngine

namespace Chunk

variable {α : Type}

/-- The lengths add up to the total. -/
theorem sum_evenLengths (total : Nat) {count : Nat} (h : 0 < count) :
    (evenLengths total count).sum = total := by
  have hmod := Nat.mod_lt total h
  have hdiv := Nat.div_add_mod total count
  obtain ⟨rest, hrest⟩ : ∃ rest, count = total % count + rest :=
    ⟨count - total % count, by omega⟩
  have hsub : count - total % count = rest := by omega
  simp only [evenLengths, List.sum_append, List.sum_replicate_nat, hsub]
  generalize total / count = quotient at hdiv ⊢
  generalize total % count = remainder at hdiv hrest ⊢
  subst hrest
  rw [Nat.add_mul] at hdiv
  rw [Nat.mul_add, Nat.mul_one]
  omega

/-- The part of a list that belongs to a chunk of its indices. -/
def slice (chunk : Chunk) (elements : List α) : List α :=
  (elements.drop chunk.offset).take chunk.length

/-- Chunks of given lengths take a list apart from their start on. -/
theorem flatten_consecutive {elements : List α} {lengths : List Nat} {start : Nat}
    (h : start + lengths.sum = elements.length) :
    ((consecutive start lengths).map fun chunk ↦ chunk.slice elements).flatten =
      elements.drop start := by
  induction lengths generalizing start with
  | nil =>
      have hstart : elements.length ≤ start := by
        simp only [List.sum_nil] at h
        omega
      simp [consecutive, List.drop_eq_nil_of_le hstart]
  | cons length rest ih =>
      rw [List.sum_cons, ← Nat.add_assoc] at h
      rw [consecutive, List.map_cons, List.flatten_cons, ih h, slice, ← List.drop_drop]
      exact List.take_append_drop length (elements.drop start)

/-- No chunk goes beyond the sum of the lengths. -/
theorem stop_le_of_mem_consecutive {chunk : Chunk} {lengths : List Nat} {start : Nat}
    (h : chunk ∈ consecutive start lengths) : chunk.stop ≤ start + lengths.sum := by
  induction lengths generalizing start with
  | nil => simp [consecutive] at h
  | cons length rest ih =>
      rw [List.sum_cons]
      rcases List.mem_cons.mp h with rfl | hrest
      · show start + length ≤ start + (length + rest.sum)
        omega
      · have hstop := ih hrest
        omega

/-- No chunk gets less than an equal share, cut down to a whole number. -/
theorem div_le_of_mem_evenLengths {total count length : Nat}
    (h : length ∈ evenLengths total count) : total / count ≤ length := by
  rcases List.mem_append.mp h with hlonger | hshorter
  · rw [(List.mem_replicate.mp hlonger).2]
    exact Nat.le_succ _
  · rw [(List.mem_replicate.mp hshorter).2]

end Chunk

theorem chunkCount_pos (total budget : Nat) : 0 < chunkCount total budget :=
  Nat.le_max_left 1 _

theorem chunkCount_le {total : Nat} (h : 0 < total) (budget : Nat) :
    chunkCount total budget ≤ total :=
  Nat.max_le.mpr ⟨h, Nat.min_le_right budget total⟩

section

variable {total budget : Nat} {chunk : Chunk} (h : chunk ∈ divide total budget)

include h

/-- Every chunk holds indices below the total. -/
theorem Chunk.stop_le : chunk.stop ≤ total := by
  unfold divide at h
  split at h
  · simp at h
  · have hstop := Chunk.stop_le_of_mem_consecutive h
    rw [Chunk.sum_evenLengths total (chunkCount_pos total budget)] at hstop
    omega

theorem Chunk.div_le_length : total / chunkCount total budget ≤ chunk.length := by
  unfold divide at h
  split at h
  · simp at h
  · refine Chunk.div_le_of_mem_evenLengths ?_
    rw [← Chunk.map_length_consecutive 0 (Chunk.evenLengths _ _)]
    exact List.mem_map_of_mem h

/-- Every chunk holds at least one index, since there are no more chunks than indices. -/
theorem Chunk.length_pos : 0 < chunk.length := by
  have htotal : 0 < total := by
    by_contra hempty
    simp [divide, Nat.eq_zero_of_not_pos hempty] at h
  calc 0 < total / chunkCount total budget :=
        Nat.div_pos (chunkCount_le htotal budget) (chunkCount_pos total budget)
    _ ≤ chunk.length := Chunk.div_le_length h

end

section

variable {total : Nat} (htotal : 0 < total) (budget : Nat)

include htotal

theorem map_length_divide :
    (divide total budget).map Chunk.length =
      Chunk.evenLengths total (chunkCount total budget) := by
  rw [divide, if_neg (Nat.ne_of_gt htotal), Chunk.map_length_consecutive]

/-- There are as many chunks as the budget and the total allow. -/
theorem length_divide : (divide total budget).length = chunkCount total budget := by
  rw [← List.length_map Chunk.length, map_length_divide htotal,
    Chunk.length_evenLengths total (chunkCount_pos total budget)]

/-- All chunks reach a length exactly if the total is enough for as many chunks of that length. -/
theorem forall_le_length_iff {least : Nat} :
    (∀ chunk ∈ divide total budget, least ≤ chunk.length) ↔
      chunkCount total budget * least ≤ total := by
  have hcount := chunkCount_pos total budget
  constructor
  · intro hleast
    have hforall : ∀ length ∈ Chunk.evenLengths total (chunkCount total budget),
        least ≤ length := by
      rw [← map_length_divide htotal budget]
      simpa using hleast
    have hsum := List.card_nsmul_le_sum _ least hforall
    rwa [Chunk.length_evenLengths total hcount, Chunk.sum_evenLengths total hcount,
      Nat.nsmul_eq_mul] at hsum
  · intro henough chunk hchunk
    calc least ≤ total / chunkCount total budget :=
          (Nat.le_div_iff_mul_le hcount).mpr (by rwa [Nat.mul_comm])
      _ ≤ chunk.length := Chunk.div_le_length hchunk

end

variable {α : Type}

/-- The parts of a list that belong to the chunks of its indices are the list. -/
theorem flatten_divide (elements : List α) (budget : Nat) :
    ((divide elements.length budget).map fun chunk ↦ chunk.slice elements).flatten =
      elements := by
  rw [divide]
  split
  · rename_i h
    simp [List.eq_nil_of_length_eq_zero h]
  · have hsum := Chunk.sum_evenLengths elements.length (chunkCount_pos elements.length budget)
    exact Chunk.flatten_consecutive (by omega)

/-- Every chunk of the indices of a list belongs to a part that is not empty. -/
theorem Chunk.slice_ne_nil {elements : List α} {budget : Nat} {chunk : Chunk}
    (h : chunk ∈ divide elements.length budget) : chunk.slice elements ≠ [] := by
  have hstop := Chunk.stop_le h
  have hlength := Chunk.length_pos h
  have hslice : (chunk.slice elements).length = chunk.length := by
    rw [Chunk.stop] at hstop
    simp only [slice, List.length_take, List.length_drop]
    omega
  intro hnil
  simp [hnil] at hslice
  omega

end ArrayEngine
