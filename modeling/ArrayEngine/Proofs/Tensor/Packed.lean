import ArrayEngine.Proofs.Tensor.Write

/-!
# Copies without gaps

An array that has the layout without gaps is returned as it is, together with the cells that its
buffer has behind the elements. Any other array is copied: the new buffer holds its elements in
their order and nothing else (`Valid.toPacked_eq_ofElements`). The copy has the order of the array,
so that an element with the same number has the same coordinates. `toPacked_spec` says of both cases
what can be read from the result.
-/

namespace ArrayEngine

open Layout

namespace Tensor

variable {platform : Platform} {tensor other : Tensor} {dtype : DType}
  {values : List (Scalar dtype)}

/-- The result is the array itself, or a new array of zeros that was filled with its elements. -/
theorem toPacked_eq_ok_iff :
    tensor.toPacked platform = .ok other ↔
      tensor.layout = packed tensor.extents tensor.layout.order tensor.dtype ∧ other = tensor ∨
      tensor.layout ≠ packed tensor.extents tensor.layout.order tensor.dtype ∧
        ∃ blank,
          zeros platform (packed tensor.extents tensor.layout.order tensor.dtype) = .ok blank ∧
            copyFrom platform tensor blank = .ok () other := by
  unfold toPacked
  grind

/-- An array without gaps lists the elements that were put into its buffer. -/
theorem toList?_ofElements {extents : List Nat} {order : Order}
    (hvolume : volume extents < Size.limit) (hvalues : values.length = volume extents) :
    (ofElements values extents order).toList? dtype = .ok values := by
  refine (toList?_eq_ok_iff (addressable_packed hvolume order dtype)).mpr
    ⟨values.toArray, rfl, ?_⟩
  show values = gather values.toArray (packed extents order dtype).offsets
  rw [offsets_packed hvolume, gather_range, ← hvalues, List.take_length]

namespace Valid

variable (htensor : tensor.Valid)

include htensor

/-- The copy of an array with gaps holds its elements, and no other cells. -/
theorem toPacked_eq_ofElements {blank : Tensor} (hcomputes : platform.computes dtype)
    (hlist : tensor.toList? dtype = .ok values) (hdtype : tensor.dtype = dtype)
    (hgaps : tensor.layout ≠ packed tensor.extents tensor.layout.order tensor.dtype)
    (hblank : zeros platform (packed tensor.extents tensor.layout.order tensor.dtype) =
      .ok blank) :
    tensor.toPacked platform = .ok (ofElements values tensor.extents tensor.layout.order) := by
  refine toPacked_eq_ok_iff.mpr (.inr ⟨hgaps, blank, hblank, ?_⟩)
  obtain ⟨listed, hlisted, hlength⟩ := htensor.exists_toList? hdtype
  cases hlist.symm.trans hlisted
  rw [copyFrom_eq_write hdtype hcomputes hlist, zeros_eq_ok hblank]
  subst hdtype
  have hvolume := htensor.addressable.size_lt
  exact write_packed hvolume (Array.size_replicate.trans (requiredCells_packed hvolume _ _)) hlength

/-- Whether the array is copied or not, the result has the layout without gaps and lists the same
elements. -/
theorem exists_toPacked (hcomputes : platform.computes tensor.dtype)
    (hroom : tensor.layout ≠ packed tensor.extents tensor.layout.order tensor.dtype →
      ∃ blank,
        zeros platform (packed tensor.extents tensor.layout.order tensor.dtype) = .ok blank) :
    ∃ other, tensor.toPacked platform = .ok other ∧ other.Valid ∧
      other.layout = packed tensor.extents tensor.layout.order tensor.dtype ∧
      other.toList? tensor.dtype = tensor.toList? tensor.dtype := by
  by_cases hgaps : tensor.layout = packed tensor.extents tensor.layout.order tensor.dtype
  · exact ⟨tensor, toPacked_eq_ok_iff.mpr (.inl ⟨hgaps, rfl⟩), htensor, hgaps, rfl⟩
  · obtain ⟨blank, hblank⟩ := hroom hgaps
    obtain ⟨values, hlist, hlength⟩ := htensor.exists_toList? rfl
    refine ⟨_, htensor.toPacked_eq_ofElements hcomputes hlist rfl hgaps hblank,
      valid_ofElements htensor.addressable.size_lt hlength _, rfl, ?_⟩
    rw [hlist]
    exact toList?_ofElements htensor.addressable.size_lt hlength

end Valid

/-- An array whose elements can be computed with is copied without gaps if the machine has room for
the new buffer, for which there is no need if it has the layout without gaps already. The result has
the extents, the order and the element type of the array; its elements lie one behind the other if
they can be counted; it holds the same element at all coordinates; and its buffer begins with the
elements in their order. A copy of the result is the result itself. -/
theorem toPacked_spec (htensor : tensor.Valid) (hcomputes : platform.computes tensor.dtype)
    (hroom : tensor.layout ≠ packed tensor.extents tensor.layout.order tensor.dtype →
      ∃ blank,
        zeros platform (packed tensor.extents tensor.layout.order tensor.dtype) = .ok blank) :
    ∃ other values cells, tensor.toPacked platform = .ok other ∧ other.Valid ∧
      other.extents = tensor.extents ∧ other.layout.order = tensor.layout.order ∧
      other.dtype = tensor.dtype ∧
      ((Size.count? tensor.extents).isSome → other.layout.isPacked) ∧
      tensor.SameElements other ∧
      tensor.toList? tensor.dtype = .ok values ∧ other.storage = ⟨tensor.dtype, cells⟩ ∧
      cells.toList.take tensor.size = values ∧
      other.toPacked platform = .ok other := by
  obtain ⟨other, hother, hvalid, hlayout, hsame⟩ := htensor.exists_toPacked hcomputes hroom
  obtain ⟨values, hlist, -⟩ := htensor.exists_toList? rfl
  have hvolume : volume tensor.extents < Size.limit := htensor.addressable.size_lt
  have hextents : other.extents = tensor.extents := by rw [extents, hlayout]; rfl
  have horder : other.layout.order = tensor.layout.order := by rw [hlayout]; rfl
  have hdtype : other.dtype = tensor.dtype := by rw [dtype, hlayout]; rfl
  obtain ⟨cells, hcells, hvalues⟩ := (toList?_eq_ok_iff hvalid.addressable).mp (hsame.trans hlist)
  refine ⟨other, values, cells, hother, hvalid, hextents, horder, hdtype, fun hcount ↦ ?_,
    htensor.sameElements_of_toList?_eq hvalid hextents.symm hdtype.symm horder.symm hlist
      (hsame.trans hlist), hlist, hcells, ?_, ?_⟩
  · rw [hlayout]
    exact isPacked_packed hcount _ _
  · rw [hvalues, hlayout, offsets_packed hvolume, gather_range]
    rfl
  · refine toPacked_eq_ok_iff.mpr (.inl ⟨?_, rfl⟩)
    rw [hextents, horder, hdtype, hlayout]

/-- Two columns of an array whose rows are all the same, stored with a cell between them. -/
def repeatedRow : Tensor :=
  ⟨make [2, 2] [0, 2] .columnMajor .i8,
    ⟨.i8, #[.ofPattern .i8 1, .ofPattern .i8 9, .ofPattern .i8 2]⟩⟩

/-- The copy of this array has four cells, and the elements lie in them column by column. -/
theorem toPacked_spec_repeated :
    repeatedRow.Valid ∧
      ∃ other values cells, repeatedRow.toPacked .small = .ok other ∧
        repeatedRow.toList? .i8 = .ok values ∧
        values = [.ofPattern .i8 1, .ofPattern .i8 1, .ofPattern .i8 2, .ofPattern .i8 2] ∧
        other.layout.isPacked ∧ other.storage = ⟨.i8, cells⟩ ∧ cells.toList.take 4 = values ∧
        other.toPacked .small = .ok other := by
  have haccepted : strided [2, 2] [0, 2] .columnMajor .i8 = .ok repeatedRow.layout := rfl
  have hvalid : repeatedRow.Valid := ⟨addressable_of_strided haccepted, rfl, by decide⟩
  obtain ⟨other, values, cells, hother, -, -, -, -, hpacked, -, hlist, hcells, hprefix,
    hagain⟩ := toPacked_spec hvalid (rfl : Platform.small.computes .i8 = true) fun _ ↦ ⟨_, rfl⟩
  exact ⟨hvalid, other, values, cells, hother, hlist, (Except.ok.inj hlist).symm, hpacked rfl,
    hcells, hprefix, hagain⟩

end Tensor

end ArrayEngine
