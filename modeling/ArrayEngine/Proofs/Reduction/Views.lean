import ArrayEngine.Proofs.Reduction.Slices

/-!
# Strided and indexed views agree

A layout with a uniform stride can be reduced without looking up any offset: each worker starts at
the cell of its first element and steps on by the stride. `View.ofIndexer` chooses this way whenever
it can. A worker reads the same cells in the same order as with the indexer, wherever its chunk
starts (`View.Selects.offsets_eq`). For the results to be equal, nothing has to be assumed of the
strategy (`reduce_strided_eq_indexed`).
-/

namespace ArrayEngine

open Layout

namespace View

variable {layout : Layout} {base : Nat}

theorem ofIndexer_of_some {stride : Nat} (h : layout.uniformStride = some stride) :
    ofIndexer (.ofLayout layout) base = .strided base stride layout.size := by
  have hfound : (Indexer.ofLayout layout).layout.uniformStride = some stride := h
  rw [ofIndexer, hfound]
  rfl

theorem ofIndexer_of_none (h : layout.uniformStride = none) :
    ofIndexer (.ofLayout layout) base = .indexed base (.ofLayout layout) := by
  have hfound : (Indexer.ofLayout layout).layout.uniformStride = none := h
  rw [ofIndexer, hfound]

namespace Selects

variable {view other : View}
  (h : Selects layout base view) (hother : Selects layout base other)
  (hlayout : layout.Addressable) {chunk : Chunk}

include h hlayout

/-- The offsets of a chunk are those of its elements in the layout, however they are found. -/
theorem offsets_eq (hstop : chunk.stop ≤ layout.size) :
    view.offsets chunk =
      (List.range' chunk.offset chunk.length).map fun i ↦ base + layout.offsetOf i := by
  rw [(h.within_largest hlayout).offsets_eq (h.size_eq ▸ hstop)]
  refine List.map_congr_left fun i hi ↦ h.offsetOf_eq hlayout ?_
  have hmem := List.mem_range'_1.mp hi
  exact hmem.2.trans_le hstop

section

include hother

variable {α β γ : Type} (strategy : Strategy α β γ) (cells : Array α)

/-- Two views of a layout lead a worker to the same accumulator. -/
theorem foldChunk_eq (hstop : chunk.stop ≤ layout.size) :
    foldChunk strategy cells view chunk = foldChunk strategy cells other chunk := by
  rw [foldChunk, foldChunk, h.offsets_eq hlayout hstop, hother.offsets_eq hlayout hstop]

/-- Two views of a layout are divided into the same chunks and hence reduce to the same result. -/
theorem reduce_eq (workers : Workers) (requested : Option Nat) :
    reduce workers strategy cells view requested =
      reduce workers strategy cells other requested := by
  have hfold (budget : Nat) :
      (divide layout.size budget).map (foldChunk strategy cells view) =
        (divide layout.size budget).map (foldChunk strategy cells other) :=
    List.map_congr_left fun chunk hchunk ↦
      h.foldChunk_eq hother hlayout strategy cells (Chunk.stop_le hchunk)
  simp only [reduce, h.size_eq, hother.size_eq, hfold]

end

/-- A worker folds the cells of its elements, in the order of the layout. -/
theorem exists_elements {α β γ : Type} {cells : Array α}
    (hcells : ∀ {coords : List Nat}, InBox layout.extents coords →
      base + layout.offsetAt coords < cells.size) (strategy : Strategy α β γ)
    (hstop : chunk.stop ≤ layout.size) :
    ∃ elements : List α,
      elements.map some = ((List.range' chunk.offset chunk.length).map fun i ↦
        cells[base + layout.offsetAt (layout.order.coords layout.extents i)]?) ∧
      foldChunk strategy cells view chunk = strategy.fold elements := by
  have hoffset {i : Nat} (hi : i ∈ List.range' chunk.offset chunk.length) :
      i < layout.size ∧
        layout.offsetOf i = layout.offsetAt (layout.order.coords layout.extents i) := by
    have hlt : i < layout.size := (List.mem_range'_1.mp hi).2.trans_le hstop
    exact ⟨hlt, hlayout.offsetOf_eq hlt⟩
  refine ⟨gather cells (view.offsets chunk), ?_, rfl⟩
  rw [h.offsets_eq hlayout hstop, map_some_gather, List.map_map]
  · exact List.map_congr_left fun i hi ↦ by rw [Function.comp_apply, (hoffset hi).2]
  · intro offset hmem
    obtain ⟨i, hi, rfl⟩ := List.mem_map.mp hmem
    rw [(hoffset hi).2]
    exact hcells (Order.inBox_coords (hoffset hi).1)

end Selects

end View

/-- The view that is chosen for an accepted layout is strided exactly if the layout has a uniform
stride, and then has this stride. If the buffer holds all elements behind the base, the strided and
the indexed view reduce to the same result for all strategies, workers and requested numbers of
workers, and over each range of elements either view folds just these elements in their order. -/
theorem reduce_strided_eq_indexed {extents strides : List Nat} {order : Order} {dtype : DType}
    {layout : Layout} (hlayout : strided extents strides order dtype = .ok layout) (base : Nat) :
    ((View.ofIndexer (.ofLayout layout) base).isStrided ↔ layout.uniformStride.isSome) ∧
    (layout.uniformStride = none →
      View.ofIndexer (.ofLayout layout) base = .indexed base (.ofLayout layout)) ∧
    ∀ {stride : Nat}, layout.uniformStride = some stride →
      View.ofIndexer (.ofLayout layout) base = .strided base stride layout.size ∧
      ∀ {α β γ : Type} {cells : Array α},
        (∀ {coords : List Nat}, InBox layout.extents coords →
          base + layout.offsetAt coords < cells.size) →
        ∀ (strategy : Strategy α β γ),
          (∀ (workers : Workers) (requested : Option Nat),
            reduce workers strategy cells (.strided base stride layout.size) requested =
              reduce workers strategy cells (.indexed base (.ofLayout layout)) requested) ∧
          ∀ {chunk : Chunk}, chunk.stop ≤ layout.size →
            ∃ elements : List α,
              elements.map some = ((List.range' chunk.offset chunk.length).map fun i ↦
                cells[base + layout.offsetAt (layout.order.coords layout.extents i)]?) ∧
              foldChunk strategy cells (.strided base stride layout.size) chunk =
                strategy.fold elements ∧
              foldChunk strategy cells (.indexed base (.ofLayout layout)) chunk =
                strategy.fold elements := by
  have haddressable := addressable_of_strided hlayout
  refine ⟨?_, View.ofIndexer_of_none, fun {stride} hstride ↦ ⟨View.ofIndexer_of_some hstride, ?_⟩⟩
  · cases hfound : layout.uniformStride with
    | none => simp [View.ofIndexer_of_none hfound, View.isStrided]
    | some stride => simp [View.ofIndexer_of_some hfound, View.isStrided]
  · intro α β γ cells hcells strategy
    have hstrided : View.Selects layout base (.strided base stride layout.size) := .strided hstride
    have hindexed : View.Selects layout base (.indexed base (.ofLayout layout)) := .indexed
    refine ⟨hstrided.reduce_eq hindexed haddressable strategy cells, fun {chunk} hstop ↦ ?_⟩
    obtain ⟨elements, helements, hfold⟩ :=
      hstrided.exists_elements haddressable hcells strategy hstop
    exact ⟨elements, helements, hfold,
      (hindexed.foldChunk_eq hstrided haddressable strategy cells hstop).trans hfold⟩

/-- Two columns of a number each, and every other cell is skipped. -/
def spacedNumbers : Layout :=
  make [2, 1, 2] [2, 9, 4] .columnMajor .i32

/-- Three workers collect what they read, the last element first, of a column-major array with the
uniform stride two and an axis with a single coordinate whose stride is another one. -/
theorem reduce_strided_eq_indexed_columnMajor :
    strided [2, 1, 2] [2, 9, 4] .columnMajor .i32 = .ok spacedNumbers ∧
      View.ofIndexer (.ofLayout spacedNumbers) 1 = .strided 1 2 4 ∧
      reduce .small
          (Strategy.mk [0] (fun seen x ↦ x :: seen) (fun left right ↦ right ++ left) Prod.mk)
          #[1, 2, 3, 4, 5, 6, 7, 8] (.indexed 1 (.ofLayout spacedNumbers)) none =
        ([8, 0, 6, 0, 4, 2, 0], 4) := by
  have hlayout : strided [2, 1, 2] [2, 9, 4] .columnMajor .i32 = .ok spacedNumbers := rfl
  have hstride : spacedNumbers.uniformStride = some 2 := rfl
  obtain ⟨_, _, hagree⟩ := reduce_strided_eq_indexed hlayout 1
  obtain ⟨hchosen, hreduce⟩ := hagree hstride
  refine ⟨hlayout, hchosen, ((hreduce ?_ _).1 _ none).symm.trans rfl⟩
  intro coords hbox
  have hlt := (addressable_of_strided hlayout).offsetAt_lt_requiredCells hbox
  have hcells : spacedNumbers.requiredCells = 7 := rfl
  rw [hcells] at hlt
  exact Nat.add_lt_add_left hlt 1

end ArrayEngine
