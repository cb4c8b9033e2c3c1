import ArrayEngine.Proofs.Parallel.Budget

/-!
# Chunks tile the work

Workers may share an array without asking each other only if no index is left out and none is taken
twice. `Chunk.Tiles` says that chunks follow one another from one index up to another; each index in
between then lies in just one of them (`Chunk.Tiles.countP_covers`). A partition hands out the
chunks to one worker after another; no sum on the way leaves the sizes, so that it is the same in
every build (`partition_eq_ok`). It panics only if there are too many chunks for a list, and
`partition_spec` says what the chunks are otherwise.
-/

namespace ArrayEngine

namespace Chunk

/-! ## Tilings -/

/-- The index is one of those of the chunk. -/
def Covers (chunk : Chunk) (i : Nat) : Prop :=
  chunk.offset ≤ i ∧ i < chunk.stop

instance (chunk : Chunk) (i : Nat) : Decidable (chunk.Covers i) :=
  inferInstanceAs (Decidable (_ ∧ _))

/-- The first chunk begins at one index, each other one where the one before it ends, and the last
one ends at another index. -/
def Tiles : Nat → List Chunk → Nat → Prop
  | start, [], stop => start = stop
  | start, chunk :: rest, stop => chunk.offset = start ∧ Tiles chunk.stop rest stop

theorem tiles_consecutive (start : Nat) (lengths : List Nat) :
    Tiles start (consecutive start lengths) (start + lengths.sum) := by
  induction lengths generalizing start with
  | nil => rfl
  | cons length rest ih =>
      rw [List.sum_cons, ← Nat.add_assoc]
      exact ⟨rfl, ih (start + length)⟩

namespace Tiles

variable {start stop : Nat} {chunks : List Chunk} (h : Tiles start chunks stop)

include h

theorem start_le_stop : start ≤ stop := by
  induction chunks generalizing start with
  | nil => exact Nat.le_of_eq h
  | cons chunk rest ih =>
      obtain ⟨rfl, hrest⟩ := h
      calc chunk.offset ≤ chunk.stop := Nat.le_add_right _ _
        _ ≤ stop := ih hrest

/-- Each index between the ends lies in one chunk, and no other index lies in any. -/
theorem countP_covers (i : Nat) :
    (chunks.countP fun chunk ↦ chunk.Covers i) = if start ≤ i ∧ i < stop then 1 else 0 := by
  induction chunks generalizing start with
  | nil =>
      obtain rfl : start = stop := h
      rw [List.countP_nil, if_neg (by omega)]
  | cons chunk rest ih =>
      obtain ⟨rfl, hrest⟩ := h
      -- The index lies in the first chunk, or in one behind it.
      have hfirst : chunk.offset ≤ chunk.stop := Nat.le_add_right _ _
      have hlast := hrest.start_le_stop
      rw [List.countP_cons, ih hrest]
      simp only [Covers]
      grind

end Tiles

/-! ## Lengths -/

variable {total count length : Nat}

/-- No chunk gets more than one index beyond an equal share. -/
theorem le_succ_div_of_mem_evenLengths (h : length ∈ evenLengths total count) :
    length ≤ total / count + 1 := by
  rcases List.mem_append.mp h with hlonger | hshorter
  · rw [(List.mem_replicate.mp hlonger).2]
  · rw [(List.mem_replicate.mp hshorter).2]
    exact Nat.le_succ _

/-- The longer chunks come first. -/
theorem pairwise_evenLengths (total count : Nat) : (evenLengths total count).Pairwise (· ≥ ·) := by
  refine List.pairwise_append.mpr
    ⟨List.pairwise_replicate.mpr (.inr (Nat.le_refl _)),
      List.pairwise_replicate.mpr (.inr (Nat.le_refl _)), ?_⟩
  intro longer hlonger shorter hshorter
  rw [(List.mem_replicate.mp hlonger).2, (List.mem_replicate.mp hshorter).2]
  exact Nat.le_succ _

/-- What one of the workers gets if some indices are left over beyond the equal shares: the first
workers take one of these each. -/
def allotment (share left worker : Nat) : Nat :=
  share + if worker < left then 1 else 0

theorem evenLengths_eq_map_range (total : Nat) (h : 0 < count) :
    evenLengths total count =
      (List.range count).map (allotment (total / count) (total % count)) := by
  have hmod := Nat.mod_lt total h
  have hlength := length_evenLengths total h
  refine List.ext_getElem (by simp [hlength]) fun worker _ _ ↦ ?_
  simp only [evenLengths, allotment, List.getElem_append, List.length_replicate,
    List.getElem_replicate, List.getElem_map, List.getElem_range]
  split <;> rfl

/-! ## Handing out -/

variable {m : Type → Type} [Monad m] [LawfulMonad m] (arithmetic : Arithmetic m)
  {share left more worker offset : Nat}

/-- A worker takes its chunk if the chunk ends at a size. -/
theorem allot_succ (h : offset + allotment share left worker < Size.limit) :
    allot arithmetic share left (more + 1) worker offset = (do
      let rest ← allot arithmetic share left more (worker + 1)
        (offset + allotment share left worker)
      pure (⟨offset, allotment share left worker⟩ :: rest)) := by
  have hlength : arithmetic.add share (if worker < left then 1 else 0) =
      pure (allotment share left worker) :=
    arithmetic.add_eq (Nat.lt_of_le_of_lt (Nat.le_add_left _ _) h)
  rw [allot, hlength, pure_bind, arithmetic.add_eq h, pure_bind]

/-- The workers take consecutive chunks if the last of these ends at a size. -/
theorem allot_eq_pure
    (h : offset + ((List.range' worker more).map (allotment share left)).sum < Size.limit) :
    allot arithmetic share left more worker offset =
      pure (consecutive offset ((List.range' worker more).map (allotment share left))) := by
  induction more generalizing worker offset with
  | zero => rfl
  | succ more ih =>
      rw [List.range'_succ, List.map_cons, List.sum_cons, ← Nat.add_assoc] at h
      rw [allot_succ arithmetic (Nat.lt_of_le_of_lt (Nat.le_add_right _ _) h), ih h, pure_bind]
      rfl

end Chunk

section

variable (arithmetic : Arithmetic (Except Panic)) {total budget : Nat}

/-- With too many chunks for a list there is a panic, before any is handed out. -/
theorem partition_eq_panic (hroom : listLimit ≤ chunkCount total budget * Chunk.bytes)
    (htotal : 0 < total) : partition arithmetic total budget = .error .capacityOverflow := by
  have hreserve : reserve (chunkCount total budget) Chunk.bytes = .error .capacityOverflow :=
    if_neg (Nat.not_lt.mpr hroom)
  rw [partition, if_neg (Nat.ne_of_gt htotal)]
  simp only [hreserve]
  rfl

/-- The indices below a size are handed out without leaving the sizes. -/
theorem partition_eq_ok (hroom : chunkCount total budget * Chunk.bytes < listLimit)
    (htotal : total < Size.limit) :
    partition arithmetic total budget = .ok (divide total budget) := by
  have hcount := chunkCount_pos total budget
  rw [partition, divide]
  split
  · rfl
  · have hlengths := Chunk.evenLengths_eq_map_range total hcount
    have hsum := Chunk.sum_evenLengths total hcount
    rw [hlengths, List.range_eq_range'] at *
    have hreserve : reserve (chunkCount total budget) Chunk.bytes = .ok () :=
      reserve_eq_ok_iff.mpr hroom
    simp only [hreserve]
    refine Chunk.allot_eq_pure arithmetic ?_
    rwa [hsum, Nat.zero_add]

/-- Work is divided for no more workers than the machine has threads. If these leave room for a list
of chunks, every partition for such workers succeeds, whatever budget the caller has asked for. -/
theorem partition_budget {workers : Workers} (requested : Option Nat)
    (hthreads : workers.platform.concurrency * Chunk.bytes < listLimit)
    (htotal : total < Size.limit) :
    partition arithmetic total (workers.budget requested total) =
      .ok (divide total (workers.budget requested total)) := by
  refine partition_eq_ok arithmetic (Nat.lt_of_le_of_lt (Nat.mul_le_mul_right _ ?_) hthreads) htotal
  have hconcurrency : 1 ≤ workers.platform.concurrency := Nat.le_max_left 1 _
  calc chunkCount total (workers.budget requested total)
      ≤ max 1 (workers.budget requested total) :=
        max_le_max_left 1 (Nat.min_le_left _ _)
    _ ≤ workers.platform.concurrency :=
        max_le hconcurrency ((workers.budget_le_ceiling requested total).trans
          (Parallel.Settings.ceiling_le_concurrency _ _))

theorem tiles_divide (total budget : Nat) : Chunk.Tiles 0 (divide total budget) total := by
  rw [divide]
  split
  · rename_i hempty
    exact hempty.symm
  · have htiles := Chunk.tiles_consecutive 0 (Chunk.evenLengths total (chunkCount total budget))
    rwa [Chunk.sum_evenLengths total (chunkCount_pos total budget), Nat.zero_add] at htiles

/-- A partition of no indices has no chunk. Otherwise there are to be as many chunks as the budget
says, but at least one and no more than there are indices. If these are too many for a list, the
partition panics. If not, they are handed out, with checked arithmetic as well, so that no sum on
the way leaves the sizes: none of them is empty; they follow one another from the first index up to
the last; the longer ones come first, and their lengths differ by at most one. Each index below the
total lies in just one chunk, and no other index lies in any. -/
theorem partition_spec (htotal : total < Size.limit) (budget : Nat) :
    partition arithmetic 0 budget = .ok [] ∧
    (2 ^ 59 ≤ min budget total →
      partition arithmetic total budget = .error .capacityOverflow) ∧
    (0 < total → min budget total < 2 ^ 59 →
      ∃ chunks, partition arithmetic total budget = .ok chunks ∧
        chunks.length = max 1 (min budget total) ∧
        (∀ chunk ∈ chunks, 0 < chunk.length) ∧
        Chunk.Tiles 0 chunks total ∧
        (chunks.map Chunk.length).Pairwise (· ≥ ·) ∧
        (∀ chunk ∈ chunks, ∀ other ∈ chunks, chunk.length ≤ other.length + 1) ∧
        (∀ chunk ∈ chunks, chunk.stop < Size.limit) ∧
        ∀ i, (chunks.countP fun chunk ↦ chunk.Covers i) = if i < total then 1 else 0) := by
  have hlimit : listLimit = 2 ^ 59 * Chunk.bytes := rfl
  have hbytes : 0 < Chunk.bytes := by decide
  refine ⟨rfl, fun hmany ↦ ?_, fun hpos hfew ↦ ?_⟩
  · refine partition_eq_panic arithmetic ?_ (by omega)
    rw [hlimit]
    exact Nat.mul_le_mul_right _ (hmany.trans (Nat.le_max_right 1 _))
  · have hroom : chunkCount total budget * Chunk.bytes < listLimit := by
      rw [hlimit]
      exact Nat.mul_lt_mul_of_pos_right (max_lt (by decide) hfew) hbytes
    have hlengths := map_length_divide hpos budget
    refine ⟨_, partition_eq_ok arithmetic hroom htotal, length_divide hpos budget,
      fun _ ↦ Chunk.length_pos, tiles_divide total budget, ?_, fun chunk hchunk other hother ↦ ?_,
      fun chunk hchunk ↦ Nat.lt_of_le_of_lt (Chunk.stop_le hchunk) htotal, fun i ↦ ?_⟩
    · rw [hlengths]
      exact Chunk.pairwise_evenLengths total _
    · have hmem := List.mem_map_of_mem (f := Chunk.length) hchunk
      rw [hlengths] at hmem
      calc chunk.length ≤ total / chunkCount total budget + 1 :=
            Chunk.le_succ_div_of_mem_evenLengths hmem
        _ ≤ other.length + 1 := Nat.succ_le_succ (Chunk.div_le_length hother)
    · rw [(tiles_divide total budget).countP_covers]
      simp

/-- Four workers share all the indices that a size can count. -/
theorem partition_spec_largest :
    Size.largest < Size.limit ∧ 0 < Size.largest ∧ min 4 Size.largest < 2 ^ 59 ∧
      ∃ chunks, partition .checked Size.largest 4 = .ok chunks ∧ chunks.length = 4 ∧
        Chunk.Tiles 0 chunks Size.largest ∧
        (chunks.countP fun chunk ↦ chunk.Covers (2 ^ 63)) = 1 := by
  have hlimit : Size.largest < Size.limit := by decide
  have hpos : 0 < Size.largest := by decide
  have hfew : min 4 Size.largest < 2 ^ 59 := by decide
  obtain ⟨-, -, hchunks⟩ := partition_spec .checked hlimit 4
  obtain ⟨chunks, hpartition, hlength, -, htiles, -, -, -, hcovers⟩ := hchunks hpos hfew
  exact ⟨hlimit, hpos, hfew, chunks, hpartition, hlength, htiles, hcovers (2 ^ 63)⟩

/-- One worker for each of these indices would be too many chunks for a list, in every build. -/
theorem partition_capacityOverflow :
    partition .checked Size.largest Size.largest = .error .capacityOverflow ∧
      partition .wrapping Size.largest Size.largest = .error .capacityOverflow :=
  ⟨rfl, rfl⟩

end

end ArrayEngine
