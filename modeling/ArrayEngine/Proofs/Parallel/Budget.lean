import ArrayEngine.Parallel.Workers
import ArrayEngine.Proofs.Parallel.Partition

/-!
# How many workers there are and how much they get

The settings ask for a least number of elements per worker. `lt_budget_iff` says what they make of
it: one more worker is taken on if the ceiling allows it and the workers so far, with that number
each, would leave some elements over. Since the elements are then divided evenly, the last worker
taken on may bring the shares below that number; `budget_shares` says how far, and when.

A pool may be set up anew any number of times. `Workers.Reachable.threads_eq` says that it always
has as many threads as its settings allow, whether they were kept or started.
-/

namespace ArrayEngine

namespace Platform

theorem concurrency_pos (platform : Platform) : 0 < platform.concurrency :=
  Nat.le_max_left 1 _

end Platform

namespace Parallel.Settings

variable (settings : Settings) (platform : Platform)

theorem ceiling_pos : 0 < settings.ceiling platform := by
  unfold ceiling
  split
  · exact Nat.le_max_left 1 _
  · exact platform.concurrency_pos

theorem ceiling_le_concurrency : settings.ceiling platform ≤ platform.concurrency := by
  unfold ceiling
  split
  · exact Nat.max_le.mpr ⟨platform.concurrency_pos, Nat.min_le_right _ _⟩
  · exact Nat.le_refl _

theorem budget_pos (total : Nat) : 0 < settings.budget platform total :=
  Nat.le_max_left 1 _

theorem budget_le_ceiling (total : Nat) :
    settings.budget platform total ≤ settings.ceiling platform :=
  Nat.max_le.mpr ⟨settings.ceiling_pos platform, Nat.min_le_left _ _⟩

variable {settings platform}

/-- One more worker is taken on exactly if the ceiling allows it and the workers so far, with the
least number of elements each, would leave some over. -/
theorem lt_budget_iff {total count : Nat} (hcount : 0 < count) :
    count < settings.budget platform total ↔
      count < settings.ceiling platform ∧ count * max 1 settings.minElements < total := by
  have hleast : 0 < max 1 settings.minElements := Nat.le_max_left 1 _
  have hceil : (total + (max 1 settings.minElements - 1)) / max 1 settings.minElements ≤ count ↔
      total ≤ max 1 settings.minElements * count := by
    rw [Nat.div_le_iff_le_mul_add_pred hleast]
    omega
  rw [Nat.mul_comm count, ← @not_le _ _ total, ← hceil]
  simp only [budget, Nat.max, Nat.min]
  omega

/-- Work is divided into as many chunks as the settings ask for. -/
theorem chunkCount_budget {total : Nat} (htotal : 0 < total) :
    chunkCount total (settings.budget platform total) = settings.budget platform total := by
  have hpos := settings.budget_pos platform total
  have hle : settings.budget platform total ≤ total := by
    by_contra hlt
    have hleast : 0 < max 1 settings.minElements := Nat.le_max_left 1 _
    have hover := ((lt_budget_iff htotal).mp (Nat.not_le.mp hlt)).2
    exact absurd hover (Nat.not_lt.mpr (Nat.le_mul_of_pos_right total hleast))
  simp only [chunkCount, Nat.max, Nat.min]
  omega

/-- One worker fewer, with the least number of elements each, would leave some over. -/
theorem pred_budget_mul_lt {total : Nat} (hsplit : 1 < settings.budget platform total) :
    (settings.budget platform total - 1) * settings.minElements < total := by
  have hlt : settings.budget platform total - 1 < settings.budget platform total := by omega
  have hpred := ((lt_budget_iff (by omega)).mp hlt).2
  exact Nat.lt_of_le_of_lt (Nat.mul_le_mul_left _ (Nat.le_max_right 1 _)) hpred

/-- There is enough for the least number each exactly if it divides the total, so that the last
worker does not have to take less, or the ceiling does not let the last worker in. -/
theorem budget_mul_le_iff {total : Nat} (hsplit : 1 < settings.budget platform total) :
    settings.budget platform total * settings.minElements ≤ total ↔
      settings.minElements ∣ total ∨ settings.ceiling platform * settings.minElements ≤ total := by
  have hpred := pred_budget_mul_lt hsplit
  have hceiling := settings.budget_le_ceiling platform total
  have hlast := (lt_budget_iff (Nat.zero_lt_of_lt hsplit)).not.mp
    (Nat.lt_irrefl (settings.budget platform total))
  generalize settings.budget platform total = count at *
  constructor
  · intro henough
    rcases Nat.lt_or_ge count (settings.ceiling platform) with hroom | hfull
    · have hused : total ≤ count * max 1 settings.minElements := by
        by_contra hover
        exact hlast ⟨hroom, Nat.not_le.mp hover⟩
      rcases Nat.eq_zero_or_pos settings.minElements with hzero | hpos
      · right
        rw [hzero]
        exact Nat.zero_le _
      · -- The work is used up, so that it is a multiple of the least number.
        left
        rw [Nat.max_eq_right hpos] at hused
        exact ⟨count, by rw [Nat.mul_comm]; exact Nat.le_antisymm hused henough⟩
    · right
      rwa [Nat.le_antisymm hceiling hfull] at henough
  · rintro (⟨shares, rfl⟩ | henough)
    · rw [Nat.mul_comm _ shares] at hpred ⊢
      have hlt := Nat.lt_of_mul_lt_mul_right hpred
      exact Nat.mul_le_mul_right _ (by omega)
    · exact Nat.le_trans (Nat.mul_le_mul_right _ hceiling) henough

/-- Work that is divided is divided evenly, so that a chunk may fall short of the least number of
elements, but not of half of it. It falls short only if the total is no multiple of the least number
and the ceiling allows one chunk more than there are multiples. -/
theorem budget_shares {total : Nat}
    (hsplit : 1 < (divide total (settings.budget platform total)).length) :
    (∀ chunk ∈ divide total (settings.budget platform total),
      (settings.minElements + 1) / 2 ≤ chunk.length) ∧
    ((∀ chunk ∈ divide total (settings.budget platform total),
        settings.minElements ≤ chunk.length) ↔
      settings.minElements ∣ total ∨ settings.ceiling platform * settings.minElements ≤ total) := by
  have htotal : 0 < total := by
    by_contra hempty
    simp [divide, Nat.eq_zero_of_not_pos hempty] at hsplit
  rw [length_divide htotal, chunkCount_budget htotal] at hsplit
  simp only [forall_le_length_iff htotal, chunkCount_budget htotal]
  refine ⟨?_, budget_mul_le_iff hsplit⟩
  have hpred := pred_budget_mul_lt hsplit
  obtain ⟨more, hmore⟩ : ∃ more, settings.budget platform total = more + 2 :=
    ⟨settings.budget platform total - 2, by omega⟩
  rw [hmore] at hpred ⊢
  have hhalf : 2 * ((settings.minElements + 1) / 2) ≤ settings.minElements + 1 :=
    Nat.mul_div_le _ 2
  calc (more + 2) * ((settings.minElements + 1) / 2)
      = more * ((settings.minElements + 1) / 2) + 2 * ((settings.minElements + 1) / 2) :=
        Nat.add_mul _ _ _
    _ ≤ more * settings.minElements + (settings.minElements + 1) :=
        Nat.add_le_add (Nat.mul_le_mul_left _ (by omega)) hhalf
    _ = (more + 1) * settings.minElements + 1 := by rw [Nat.add_mul]; omega
    _ ≤ total := hpred

/-- Three workers for 250 elements get no 100 each, although that is the least number. -/
theorem budget_shares_uneven :
    1 < (divide 250 ((Settings.mk (some 8) 100).budget .small 250)).length ∧
      (∀ chunk ∈ divide 250 ((Settings.mk (some 8) 100).budget .small 250),
        50 ≤ chunk.length) ∧
      ¬ ∀ chunk ∈ divide 250 ((Settings.mk (some 8) 100).budget .small 250),
        100 ≤ chunk.length := by
  have hsplit :
      1 < (divide 250 ((Settings.mk (some 8) 100).budget .small 250)).length := by
    decide
  have hshares := budget_shares hsplit
  exact ⟨hsplit, hshares.1, hshares.2.not.mpr (by decide)⟩

/-- The least number of elements is no bound for the chunks: with two workers for three elements and
a least number of two, one chunk has one element. -/
theorem minElements_not_reached :
    ¬ ∀ (settings : Settings) (platform : Platform) (total : Nat), 0 < total →
      1 < (divide total (settings.budget platform total)).length →
      ∀ chunk ∈ divide total (settings.budget platform total),
        settings.minElements ≤ chunk.length := by
  intro h
  have hchunk := h ⟨some 2, 2⟩ .small 3 (by decide) (by decide) ⟨2, 1⟩ (by decide)
  exact absurd hchunk (by decide)

end Parallel.Settings

/-! ## Pools -/

namespace Workers

/-- No computation is divided among more workers than the ceiling allows. -/
theorem budget_le_ceiling (workers : Workers) (requested : Option Nat) (total : Nat) :
    workers.budget requested total ≤ workers.ceiling := by
  cases requested with
  | none => exact Parallel.Settings.budget_le_ceiling _ _ _
  | some asked => exact Nat.min_le_right _ _

/-- The pools of a machine: those that were started, for given settings or for those that the
environment asks for, and those that another pool was set up anew as. -/
inductive Reachable (platform : Platform) : Workers → Prop
  | start (settings : Parallel.Settings) : Reachable platform (start platform settings)
  | startFromEnvironment (threads elements : Option String) :
      Reachable platform (start platform (.ofEnvironment threads elements))
  | reconfigure {workers : Workers} (settings : Parallel.Settings)
      (h : Reachable platform workers) : Reachable platform (workers.reconfigure settings)

namespace Reachable

variable {platform : Platform} {workers : Workers} (h : Reachable platform workers)

include h

theorem platform_eq : workers.platform = platform := by
  induction h with
  | start settings => rfl
  | startFromEnvironment threads elements => rfl
  | reconfigure settings _ ih =>
      unfold Workers.reconfigure
      split
      · exact ih
      · exact ih

/-- A pool has as many threads as its settings allow, also if they are those of an earlier pool. -/
theorem threads_eq : workers.threads = workers.settings.ceiling platform := by
  induction h with
  | start settings => rfl
  | startFromEnvironment threads elements => rfl
  | reconfigure settings hworkers _ =>
      rw [← hworkers.platform_eq]
      unfold Workers.reconfigure
      split
      · rename_i hkept
        exact hkept.symm
      · rfl

/-- A budget that the caller asks for stays within the number of threads. -/
theorem budget_eq (requested : Option Nat) (total : Nat) :
    workers.budget requested total =
      requested.elim (workers.settings.budget platform total) (min · workers.threads) := by
  cases requested with
  | none => rw [budget, h.platform_eq, Option.elim]
  | some asked => rw [h.threads_eq, ← h.platform_eq]; rfl

/-- No computation is divided among more workers than there are threads. -/
theorem budget_le_threads (requested : Option Nat) (total : Nat) :
    workers.budget requested total ≤ workers.threads := by
  rw [h.threads_eq, ← h.platform_eq]
  exact workers.budget_le_ceiling requested total

end Reachable

end Workers

end ArrayEngine
