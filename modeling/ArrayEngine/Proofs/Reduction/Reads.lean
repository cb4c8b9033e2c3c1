import ArrayEngine.Proofs.Reduction.Slices

/-!
# The cells that the engine reads

`AxisSplit.reads` lists the offsets at which the workers read the buffer when an array is reduced
along a split of its axes, worker by worker and slice by slice. The result depends on no other cell
(`reduceAlong_eq_of_reads`), and however the work is divided, just the elements of the array are
read, each of them once (`perm_reads`). In particular nothing is read of slices without elements,
whose first offset may lie behind the buffer.
-/

namespace ArrayEngine

open Layout

/-- The offsets that the workers read of a view, one chunk after another. -/
def View.reads (workers : Workers) (requested : Option Nat) (view : View) : List Nat :=
  (divide view.size (workers.budget requested view.size)).flatMap fun chunk ↦ view.offsets chunk

/-- The offsets that the engine reads along a split of the axes of a layout. -/
def AxisSplit.reads (workers : Workers) (requested : Option Nat) (layout : Layout) :
    AxisSplit → List Nat
  | .elements => layout.offsets
  | .whole => (View.ofLayout layout 0).reads workers requested
  | .slices parts =>
      parts.bases.flatMap fun base ↦ (View.ofLayout parts.layout base).reads workers requested

/-! ## Nothing else is read -/

section

variable {α β γ : Type} {cells others : Array α} {workers : Workers} {requested : Option Nat}

/-- What is gathered depends only on the cells at the offsets. -/
theorem gather_congr {offsets : List Nat}
    (h : ∀ offset ∈ offsets, cells[offset]? = others[offset]?) :
    gather cells offsets = gather others offsets :=
  List.filterMap_congr h

/-- The result for a view depends only on the cells that are read of it. -/
theorem reduce_eq_of_reads {view : View}
    (h : ∀ offset ∈ view.reads workers requested, cells[offset]? = others[offset]?)
    (strategy : Strategy α β γ) :
    reduce workers strategy cells view requested =
      reduce workers strategy others view requested := by
  have hfold : (divide view.size (workers.budget requested view.size)).map
        (foldChunk strategy cells view) =
      (divide view.size (workers.budget requested view.size)).map
        (foldChunk strategy others view) := by
    refine List.map_congr_left fun chunk hchunk ↦ congrArg strategy.fold (gather_congr ?_)
    exact fun offset hoffset ↦ h offset (List.mem_flatMap.mpr ⟨chunk, hchunk, hoffset⟩)
  simp only [reduce, hfold]

/-- The results along a split depend only on the cells that are read. -/
theorem reduceAlong_eq_of_reads {layout : Layout} {split : AxisSplit}
    (h : ∀ offset ∈ split.reads workers requested layout, cells[offset]? = others[offset]?)
    (strategy : Strategy α β γ) :
    reduceAlong workers strategy cells layout requested split =
      reduceAlong workers strategy others layout requested split := by
  cases split with
  | elements =>
      have hgather : gather cells layout.offsets = gather others layout.offsets := gather_congr h
      rw [reduceAlong, reduceAlong, hgather]
  | whole => rw [reduceAlong, reduceAlong, reduce_eq_of_reads h]
  | slices slices =>
      refine List.map_congr_left fun base hbase ↦ reduce_eq_of_reads ?_ strategy
      exact fun offset hoffset ↦ h offset (List.mem_flatMap.mpr ⟨base, hbase, hoffset⟩)

end

/-! ## Every element is read once -/

/-- Together the chunks of a view are all its offsets, in their order. -/
theorem View.Within.reads_eq {view : View} {held : Nat} (h : view.Within held) (workers : Workers)
    (requested : Option Nat) :
    view.reads workers requested = (List.range view.size).map view.offsetOf := by
  have hlength : ((List.range view.size).map view.offsetOf).length = view.size := by simp
  have hslice : ∀ chunk ∈ divide view.size (workers.budget requested view.size),
      view.offsets chunk = chunk.slice ((List.range view.size).map view.offsetOf) := by
    intro chunk hchunk
    have hstop := Chunk.stop_le hchunk
    rw [h.offsets_eq hstop, Chunk.slice, ← List.map_drop, ← List.map_take]
    congr 1
    rw [Chunk.stop] at hstop
    apply List.ext_getElem
    · simp
      omega
    · intro i _ _
      simp
  have hflatten := flatten_divide ((List.range view.size).map view.offsetOf)
    (workers.budget requested view.size)
  rw [hlength] at hflatten
  rw [reads, List.flatMap_congr hslice, List.flatMap, hflatten]

/-- Of a view of a layout, the offsets of the layout behind the base of the view are read. -/
theorem View.reads_ofLayout {layout : Layout} (hlayout : layout.Addressable) (base : Nat)
    (workers : Workers) (requested : Option Nat) :
    (ofLayout layout base).reads workers requested = layout.offsets.map (base + ·) := by
  have hselects := selects_ofLayout layout base
  rw [(hselects.within_largest hlayout).reads_eq, hselects.map_offsetOf hlayout]

/-- Along every split, and however the work is divided, each element of the array is read once and
nothing else is. -/
theorem Layout.Addressable.perm_reads {layout : Layout} (hlayout : layout.Addressable)
    {axes : List Nat} {split : AxisSplit} (hsplit : layout.splitAlong axes = .ok split)
    (workers : Workers) (requested : Option Nat) :
    (split.reads workers requested layout).Perm layout.offsets := by
  cases split with
  | elements => exact .rfl
  | whole =>
      rw [AxisSplit.reads, View.reads_ofLayout hlayout]
      simp
  | slices slices =>
      have halong := along_of_splitAlong hlayout.length_strides hsplit
      simp only [AxisSplit.reads, View.reads_ofLayout halong.addressable]
      exact halong.perm_offsets hlayout

end ArrayEngine
