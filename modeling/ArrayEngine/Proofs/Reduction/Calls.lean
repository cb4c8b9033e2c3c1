import ArrayEngine.Proofs.Parallel.Budget
import ArrayEngine.Proofs.Reduction.Engine
import Mathlib.Data.List.Induction

/-!
# How often the engine calls a strategy

A strategy that counts its calls reduces to the same result and says how often each of its functions
was called on the way. `Workers.Reachable.reduce_calls` puts this together for every pool of a
machine: each part of the elements takes one seed, each element is taken in once, the accumulators
of the parts are joined by one call less than there are parts, and the last one is finalized once.
-/

namespace ArrayEngine

/-- How often the functions of a strategy have been called. -/
structure Calls where
  seed : Nat
  combine : Nat
  merge : Nat
  finalize : Nat
  deriving DecidableEq, Repr

namespace Strategy

variable {α β γ : Type} (strategy : Strategy α β γ)

/-- The strategy that counts its calls: accumulators and results come with the calls that were made
for them. -/
def counted : Strategy α (β × Calls) (γ × Calls) where
  seed := (strategy.seed, ⟨1, 0, 0, 0⟩)
  combine := fun (accumulator, calls) element ↦
    (strategy.combine accumulator element, { calls with combine := calls.combine + 1 })
  merge := fun (left, before) (right, behind) ↦
    (strategy.merge left right,
      ⟨before.seed + behind.seed, before.combine + behind.combine, before.merge + behind.merge + 1,
        before.finalize + behind.finalize⟩)
  finalize := fun (accumulator, calls) count ↦
    (strategy.finalize accumulator count, { calls with finalize := calls.finalize + 1 })

theorem counted_merge (left right : β) (before behind : Calls) :
    strategy.counted.merge (left, before) (right, behind) =
      (strategy.merge left right,
        ⟨before.seed + behind.seed, before.combine + behind.combine,
          before.merge + behind.merge + 1, before.finalize + behind.finalize⟩) := rfl

/-- A list is folded from one seed on, with one call per element. -/
theorem fold_counted (elements : List α) :
    strategy.counted.fold elements = (strategy.fold elements, ⟨1, elements.length, 0, 0⟩) := by
  induction elements using List.reverseRecOn with
  | nil => rfl
  | append_singleton elements element ih =>
      rw [fold_append, fold_append, ih, List.length_append]
      rfl

/-- Joining the accumulators of further parts takes one call for each of them. -/
theorem foldl_merge_counted (rest : List (List α)) (accumulator : β) (calls : Calls) :
    (rest.map strategy.counted.fold).foldl strategy.counted.merge (accumulator, calls) =
      ((rest.map strategy.fold).foldl strategy.merge accumulator,
        ⟨calls.seed + rest.length, calls.combine + rest.flatten.length,
          calls.merge + rest.length, calls.finalize⟩) := by
  induction rest generalizing accumulator calls with
  | nil => rfl
  | cons part rest ih =>
      rw [List.map_cons, List.foldl_cons, fold_counted, counted_merge, ih]
      simp only [List.map_cons, List.foldl_cons, List.length_cons, List.flatten_cons,
        List.length_append, Prod.mk.injEq, Calls.mk.injEq, true_and]
      omega

/-- The parts of a list are folded and joined with one seed per part, one call per element and one
call less than there are parts. -/
theorem mergeAll_counted {parts : List (List α)} (h : parts ≠ []) :
    strategy.counted.mergeAll (parts.map strategy.counted.fold) =
      (strategy.mergeAll (parts.map strategy.fold),
        ⟨parts.length, parts.flatten.length, parts.length - 1, 0⟩) := by
  cases parts with
  | nil => exact absurd rfl h
  | cons first rest =>
      rw [List.map_cons, mergeAll, fold_counted, foldl_merge_counted]
      simp only [List.map_cons, mergeAll, List.length_cons, List.flatten_cons, List.length_append,
        Prod.mk.injEq, Calls.mk.injEq, true_and, and_true]
      omega

end Strategy

variable {α β γ : Type} (workers : Workers) (strategy : Strategy α β γ)

/-- A list that is not empty is reduced with one seed per chunk. -/
theorem reduceList_counted {elements : List α} (h : elements ≠ []) (requested : Option Nat) :
    reduceList workers strategy.counted elements requested =
      (reduceList workers strategy elements requested,
        ⟨chunkCount elements.length (workers.budget requested elements.length), elements.length,
          chunkCount elements.length (workers.budget requested elements.length) - 1, 1⟩) := by
  have hlength : 0 < elements.length := List.length_pos_iff.mpr h
  have hchunks := length_divide hlength (workers.budget requested elements.length)
  have hflatten := flatten_divide elements (workers.budget requested elements.length)
  have hparts : (divide elements.length (workers.budget requested elements.length)).map
      (fun chunk ↦ chunk.slice elements) ≠ [] := by
    intro hnil
    rw [hnil] at hflatten
    exact h hflatten.symm
  have hmerged := strategy.mergeAll_counted hparts
  rw [hflatten, List.length_map, hchunks, List.map_map, List.map_map] at hmerged
  exact congrArg (strategy.counted.finalize · elements.length) hmerged

/-- Every pool of a machine has as many threads as its settings allow, at least one and no more than
the machine runs at once. Elements are reduced in as many chunks as the settings ask for or the
caller, who is held to the number of threads. Each chunk takes one seed and each element one call,
the chunks are joined by one call less than there are chunks, and the last accumulator is finalized
once; without elements the seed is. -/
theorem Workers.Reachable.reduce_calls {platform : Platform} {workers : Workers}
    (hworkers : workers.Reachable platform) {cells : Array α} {view : View}
    (h : view.Within cells.size) (requested : Option Nat) :
    let chunks := min view.size
      (max 1 (requested.elim (workers.settings.budget platform view.size) (min · workers.threads)))
    workers.threads = workers.settings.ceiling platform ∧
      1 ≤ workers.threads ∧ workers.threads ≤ platform.concurrency ∧
      (divide view.size (workers.budget requested view.size)).length = chunks ∧
      chunks ≤ workers.threads ∧
      (0 < view.size → reduce workers strategy.counted cells view requested =
        (reduce workers strategy cells view requested, ⟨chunks, view.size, chunks - 1, 1⟩)) ∧
      (view.size = 0 → reduce workers strategy.counted cells view requested =
        (reduce workers strategy cells view requested, ⟨1, 0, 0, 1⟩)) := by
  intro chunks
  have hthreads := hworkers.threads_eq
  have hpos : 1 ≤ workers.threads := hthreads ▸ Parallel.Settings.ceiling_pos _ _
  have hle : workers.threads ≤ platform.concurrency :=
    hthreads ▸ Parallel.Settings.ceiling_le_concurrency _ _
  have hbudget := hworkers.budget_le_threads requested view.size
  have hchunks (hsize : 0 < view.size) :
      chunkCount view.size (workers.budget requested view.size) = chunks := by
    rw [hworkers.budget_eq]
    simp only [chunkCount, chunks, Nat.max, Nat.min]
    omega
  refine ⟨hthreads, hpos, hle, ?_, ?_, fun hsize ↦ ?_, fun hempty ↦ ?_⟩
  · rcases Nat.eq_zero_or_pos view.size with hempty | hsize
    · simp [divide, chunks, hempty]
    · rw [length_divide hsize, hchunks hsize]
  · rw [hworkers.budget_eq] at hbudget
    exact Nat.le_trans (Nat.min_le_right _ _) (Nat.max_le.mpr ⟨hpos, hbudget⟩)
  · have hnonempty : view.elements cells ≠ [] := by
      rw [← List.length_pos_iff, h.length_elements]
      exact hsize
    rw [reduce_eq_reduceList workers _ h, reduce_eq_reduceList workers _ h,
      reduceList_counted workers strategy hnonempty, h.length_elements, hchunks hsize]
  · simp only [reduce, if_pos hempty]
    rfl

/-- A pool set up anew has three threads, and so takes five elements in three chunks, however many
are asked for. -/
theorem Workers.Reachable.reduce_calls_reconfigured :
    ((Workers.start .small ⟨none, 64⟩).reconfigure ⟨some 3, 1⟩).Reachable .small ∧
      (View.strided 1 2 5).Within 10 ∧
      reduce ((Workers.start .small ⟨none, 64⟩).reconfigure ⟨some 3, 1⟩)
          (Strategy.mk 0 (· + ·) (· + ·) fun sum _ ↦ sum : Strategy Nat Nat Nat).counted
          #[0, 1, 2, 3, 4, 5, 6, 7, 8, 9] (.strided 1 2 5) (some Size.largest) =
        (25, ⟨3, 5, 2, 1⟩) := by
  have hworkers : ((Workers.start .small ⟨none, 64⟩).reconfigure ⟨some 3, 1⟩).Reachable
      .small := .reconfigure _ (.start _)
  have hwithin : (View.strided 1 2 5).Within 10 := by
    have hoffset : ∀ i < 5, (View.strided 1 2 5).offsetOf i < 10 := by decide
    exact ⟨fun h ↦ (nomatch h), fun hi ↦ hoffset _ hi⟩
  obtain ⟨-, -, -, -, -, hcalls, -⟩ := hworkers.reduce_calls
    (Strategy.mk 0 (· + ·) (· + ·) fun sum _ ↦ sum : Strategy Nat Nat Nat)
    (show (View.strided 1 2 5).Within #[0, 1, 2, 3, 4, 5, 6, 7, 8, 9].size from hwithin)
    (some Size.largest)
  exact ⟨hworkers, hwithin, (hcalls (by decide)).trans (by decide)⟩

end ArrayEngine
