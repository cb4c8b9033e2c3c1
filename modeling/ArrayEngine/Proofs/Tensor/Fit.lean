import ArrayEngine.Proofs.Tensor

/-!
# Layouts that fit a buffer

Whether a buffer can be read through a layout is decided without looking at a single element: the
cells that the layout needs are computed from its extents and strides, and compared with the size of
the buffer. `Addressable.isGreatest_lastOffset` says that the number computed is the right one, as
the largest coordinates have the largest offset, and `withLayout_fits` that just the layouts are
accepted whose elements all have a cell.
-/

namespace ArrayEngine

open Layout

namespace Tensor

/-- An array can be read through an accepted layout exactly if the layout has its element type and
every element, found by the layout or by an indexer, has a cell in the buffer; the copy has the
layout and the same buffer. What is compared with the buffer is one more than the largest offset of
an element, and zero if there are no elements. -/
theorem withLayout_fits {extents strides : List Nat} {order : Order} {dtype : DType}
    {layout : Layout} (hlayout : strided extents strides order dtype = .ok layout)
    (tensor : Tensor) :
    ((∃ other, tensor.withLayout layout = .ok other) ↔
        layout.dtype = tensor.dtype ∧
          ∀ i < layout.size, layout.offsetOf i < tensor.storage.size) ∧
      (∀ other, tensor.withLayout layout = .ok other →
        other.layout = layout ∧ other.storage = tensor.storage) ∧
      (∀ i < layout.size, (Indexer.ofLayout layout).offsetOf i = layout.offsetOf i) ∧
      (0 < layout.size →
        ∃ last, IsGreatest {offset | ∃ i < layout.size, layout.offsetOf i = offset} last ∧
          layout.requiredCells = last + 1) ∧
      (layout.size = 0 → layout.requiredCells = 0) := by
  have haddressable := addressable_of_strided hlayout
  refine ⟨⟨?_, ?_⟩, ?_, fun i hi ↦ haddressable.offsetOf_ofLayout hi, ?_,
    requiredCells_of_size_eq_zero⟩
  · rintro ⟨other, hother⟩
    obtain ⟨hdtype, hcells, -⟩ := withLayout_eq_ok_iff.mp hother
    exact ⟨hdtype, haddressable.requiredCells_le_iff.mp hcells⟩
  · rintro ⟨hdtype, hcells⟩
    have hrequired := haddressable.requiredCells_le_iff.mpr hcells
    exact ⟨_, withLayout_eq_ok_iff.mpr ⟨hdtype, hrequired, rfl⟩⟩
  · intro other hother
    obtain ⟨-, -, rfl⟩ := withLayout_eq_ok_iff.mp hother
    exact ⟨rfl, rfl⟩
  · intro hpos
    exact ⟨_, haddressable.isGreatest_lastOffset hpos,
      haddressable.requiredCells_eq (volume_pos_iff.mp hpos)⟩

/-- Three pairs with a gap in each. -/
def gappedPairs : Layout :=
  make [3, 1, 2] [1, 40, 5] .rowMajor .i16

/-- As many threes. -/
def threes (count : Nat) : Tensor :=
  ⟨.packed [count] .rowMajor .i16, ⟨.i16, Array.replicate count (.ofPattern .i16 3)⟩⟩

/-- Eight cells are enough for two columns of three that lie five cells apart, and seven are not. -/
theorem withLayout_fits_gapped :
    strided [3, 1, 2] [1, 40, 5] .rowMajor .i16 = .ok gappedPairs ∧
      (∃ other, (threes 8).withLayout gappedPairs = .ok other) ∧
      ¬∃ other, (threes 7).withLayout gappedPairs = .ok other := by
  have hlayout : strided [3, 1, 2] [1, 40, 5] .rowMajor .i16 = .ok gappedPairs := rfl
  refine ⟨hlayout, (withLayout_fits hlayout _).1.mpr (by decide), fun hfits ↦ ?_⟩
  exact absurd ((withLayout_fits hlayout _).1.mp hfits) (by decide)

end Tensor

end ArrayEngine
