import ArrayEngine.Proofs.Layout.NestedStrides
import ArrayEngine.Proofs.Tensor

/-!
# Exchanging two axes

If two axes of a layout are exchanged, an element is found at its old offset under the exchanged
coordinates (`offsetAt_of_transpose`), so that the same cells are addressed in another order. The
elements are numbered anew, and so the uniform stride is computed anew. A second exchange undoes the
first, and finds the uniform stride that was there before (`transpose_transpose`). `transpose_spec`
puts this together for layouts and for the arrays that are read through them.
-/

namespace ArrayEngine

open Layout

namespace Layout

variable {layout other : Layout} {i j : Nat} {coords : List Nat}

/-- An exchange fails for the first of the two axes that does not exist. -/
theorem transpose_eq_error_iff {error : Error} :
    layout.transpose i j = .error error ↔
      layout.rank ≤ i ∧ error = .invalidAxis i layout.rank ∨
        i < layout.rank ∧ layout.rank ≤ j ∧ error = .invalidAxis j layout.rank := by
  unfold transpose
  grind

section

variable (h : layout.transpose i j = .ok other) (hbox : InBox layout.extents coords)

include h hbox

theorem inBox_of_transpose : InBox other.extents (exchange coords i j) := by
  obtain ⟨hi, hj, rfl⟩ := transpose_eq_ok_iff.mp h
  exact inBox_exchange hbox hi hj

theorem exchange_exchange_of_inBox : exchange (exchange coords i j) i j = coords := by
  obtain ⟨hi, hj, -⟩ := transpose_eq_ok_iff.mp h
  exact exchange_exchange (hbox.length_eq ▸ hi) (hbox.length_eq ▸ hj)

end

namespace Addressable

variable (hlayout : layout.Addressable) (h : layout.transpose i j = .ok other)

include hlayout h

/-- The element at given coordinates lies at the exchanged coordinates afterwards. -/
theorem offsetAt_of_transpose (hbox : InBox layout.extents coords) :
    other.offsetAt (exchange coords i j) = layout.offsetAt coords := by
  obtain ⟨hi, hj, rfl⟩ := transpose_eq_ok_iff.mp h
  have hcoords : coords.length = layout.rank := hbox.length_eq
  exact sum_zipWith_exchange (hcoords ▸ hi) (hcoords ▸ hj)
    (hcoords.trans hlayout.length_strides.symm)

/-- A second exchange gives the layout back, with the uniform stride that it had. -/
theorem transpose_transpose : other.transpose i j = .ok layout := by
  obtain ⟨hi, hj, rfl⟩ := transpose_eq_ok_iff.mp h
  have hstrides := hlayout.length_strides
  refine transpose_eq_ok_iff.mpr ⟨?_, ?_, ?_⟩
  · rwa [rank, make, length_exchange]
  · rwa [rank, make, length_exchange]
  · simp only [make]
    rw [exchange_exchange hi hj, exchange_exchange (hstrides ▸ hi) (hstrides ▸ hj),
      ← hlayout.uniformStride_eq]

/-- The coordinates afterwards are the exchanged ones, each of them once. -/
theorem perm_coordinates_of_transpose :
    other.coordinates.Perm (layout.coordinates.map (exchange · i j)) := by
  have hback := hlayout.transpose_transpose h
  refine (List.perm_ext_iff_of_nodup (nodup_coordinates other) ?_).mpr fun coords ↦ ?_
  · refine (nodup_coordinates layout).map_on fun xs hxs ys hys heq ↦ ?_
    rw [← exchange_exchange_of_inBox h (mem_coordinates.mp hxs), heq,
      exchange_exchange_of_inBox h (mem_coordinates.mp hys)]
  · rw [mem_coordinates, List.mem_map]
    constructor
    · intro hbox
      exact ⟨exchange coords i j, mem_coordinates.mpr (inBox_of_transpose hback hbox),
        exchange_exchange_of_inBox hback hbox⟩
    · rintro ⟨before, hbefore, rfl⟩
      exact inBox_of_transpose h (mem_coordinates.mp hbefore)

/-- The same offsets are addressed, in another order. -/
theorem perm_offsets_of_transpose : other.offsets.Perm layout.offsets := by
  rw [(hlayout.of_transpose h).offsets_eq, hlayout.offsets_eq]
  refine ((hlayout.perm_coordinates_of_transpose h).map _).trans ?_
  rw [List.map_map]
  refine .of_eq (List.map_congr_left fun coords hcoords ↦ ?_)
  exact hlayout.offsetAt_of_transpose h (mem_coordinates.mp hcoords)

theorem requiredCells_of_transpose : other.requiredCells = layout.requiredCells :=
  hlayout.requiredCells_eq_of_perm_walk (hlayout.of_transpose h)
    (hlayout.perm_walk_of_transpose h)

end Addressable

end Layout

namespace Tensor

variable {tensor : Tensor} {layout : Layout} {i j : Nat}

/-- The buffer of an array is long enough for the array with two axes exchanged. -/
theorem Valid.transposed_eq_ok (htensor : tensor.Valid)
    (h : tensor.layout.transpose i j = .ok layout) :
    tensor.transposed i j = .ok ⟨layout, tensor.storage⟩ := by
  refine bind_eq_ok.mpr ⟨layout, h, withLayout_eq_ok_iff.mpr ⟨?_, ?_, rfl⟩⟩
  · obtain ⟨-, -, rfl⟩ := transpose_eq_ok_iff.mp h
    rfl
  · rw [htensor.addressable.requiredCells_of_transpose h]
    exact htensor.requiredCells_le

/-- Two axes of an accepted layout can be exchanged exactly if both exist. Afterwards each element
has the exchanged coordinates and the offset that it had, whether the offset is the one of the
coordinates or the one that is found for their number; the layout needs as many cells as before and
addresses the same offsets, each as often as before. A second exchange gives the layout back, with
the uniform stride that it had. An array can be read with any two of its axes exchanged, from the
same buffer, and a second exchange gives the array back. -/
theorem transpose_spec :
    (∀ {extents strides : List Nat} {order : Order} {dtype : DType} {layout : Layout},
      strided extents strides order dtype = .ok layout → ∀ i j,
        ((∃ error, layout.transpose i j = .error error) ↔
          layout.rank ≤ i ∨ layout.rank ≤ j) ∧
        ∀ other, layout.transpose i j = .ok other →
          (∀ coords, InBox layout.extents coords →
            InBox other.extents (exchange coords i j) ∧
            other.offsetAt (exchange coords i j) = layout.offsetAt coords ∧
            other.offsetOf (other.order.index other.extents (exchange coords i j)) =
              layout.offsetOf (layout.order.index layout.extents coords)) ∧
          other.requiredCells = layout.requiredCells ∧
          other.offsets.Perm layout.offsets ∧
          other.transpose i j = .ok layout) ∧
    ∀ {tensor : Tensor}, tensor.Valid → ∀ i < tensor.layout.rank, ∀ j < tensor.layout.rank,
      ∃ other, tensor.transposed i j = .ok other ∧ other.storage = tensor.storage ∧
        other.transposed i j = .ok tensor := by
  constructor
  · intro extents strides order dtype layout haccepted i j
    have hlayout := addressable_of_strided haccepted
    refine ⟨?_, fun other h ↦ ⟨fun coords hbox ↦ ?_, hlayout.requiredCells_of_transpose h,
      hlayout.perm_offsets_of_transpose h, hlayout.transpose_transpose h⟩⟩
    · simp only [transpose_eq_error_iff]
      grind
    · have hother := hlayout.of_transpose h
      have hbox' := inBox_of_transpose h hbox
      have hoffset := hlayout.offsetAt_of_transpose h hbox
      refine ⟨hbox', hoffset, ?_⟩
      rw [hother.offsetOf_index hbox', hlayout.offsetOf_index hbox, hoffset]
  · intro tensor htensor i hi j hj
    have h := transpose_eq_ok_iff.mpr ⟨hi, hj, rfl⟩
    have htransposed := htensor.transposed_eq_ok h
    exact ⟨_, htransposed, rfl, (htensor.of_transposed htransposed).transposed_eq_ok
      (htensor.addressable.transpose_transpose h)⟩

/-- Two rows of every other cell. -/
def spacedRows : Layout :=
  make [2, 3] [6, 2] .rowMajor .i8

/-- The rows as columns. -/
def spacedColumns : Layout :=
  make [3, 2] [2, 6] .rowMajor .i8

/-- An array of such rows, with a longer buffer. -/
def spacedSevens : Tensor :=
  ⟨spacedRows, ⟨.i8, Array.replicate 12 (.ofPattern .i8 7)⟩⟩

/-- Rows that are every other cell have a uniform stride, which their columns do not have, and which
is found again for the rows. The same holds of an array of such rows with a longer buffer. -/
theorem transpose_spec_uniform :
    strided [2, 3] [6, 2] .rowMajor .i8 = .ok spacedRows ∧
      spacedRows.transpose 0 1 = .ok spacedColumns ∧
      spacedRows.uniformStride = some 2 ∧
      spacedColumns.uniformStride = none ∧
      spacedColumns.offsets.Perm spacedRows.offsets ∧
      spacedColumns.transpose 0 1 = .ok spacedRows ∧
      spacedSevens.Valid ∧
      ∃ other, spacedSevens.transposed 0 1 = .ok other ∧
        other.transposed 0 1 = .ok spacedSevens := by
  have haccepted : strided [2, 3] [6, 2] .rowMajor .i8 = .ok spacedRows := rfl
  have hexchanged : spacedRows.transpose 0 1 = .ok spacedColumns := rfl
  have hvalid : spacedSevens.Valid := ⟨addressable_of_strided haccepted, rfl, by decide⟩
  obtain ⟨-, -, hoffsets, hback⟩ := (transpose_spec.1 haccepted 0 1).2 _ hexchanged
  obtain ⟨other, hother, -, hagain⟩ := transpose_spec.2 hvalid 0 (by decide) 1 (by decide)
  exact ⟨haccepted, hexchanged, rfl, rfl, hoffsets, hback, hvalid, other, hother, hagain⟩

end Tensor

end ArrayEngine
