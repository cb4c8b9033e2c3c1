import ArrayEngine.Proofs.Layout.Cursor
import ArrayEngine.Proofs.Layout.Reshape
import ArrayEngine.Tensor
import Mathlib.Data.List.Induction

/-!
# Elements of arrays

`Tensor.Valid` is what holds of an array whose elements can be read: its layout can be addressed,
its buffer has the element type of the layout, and it is long enough. `valueAt?` is the integer at
given coordinates. Writing all elements of an array without gaps leaves just these elements in the
buffer, in their order (`write_packed`).
-/

namespace ArrayEngine

/-- Writing to the first cells replaces these and leaves the others. -/
theorem toList_scatter_range {α : Type} {cells : Array α} {values : List α}
    (h : values.length ≤ cells.size) :
    (scatter cells (List.range values.length) values).toList =
      values ++ cells.toList.drop values.length := by
  -- The last write is the one to the cell behind all others.
  induction values using List.reverseRecOn with
  | nil => rfl
  | append_singleton values value ih =>
      have hlength : (values ++ [value]).length = values.length + 1 := by simp
      rw [hlength] at h ⊢
      have hwritten := ih (by omega)
      have hwrites : (List.range (values.length + 1)).zip (values ++ [value]) =
          (List.range values.length).zip values ++ [(values.length, value)] := by
        rw [List.range_succ, List.zip_append (by simp)]
        rfl
      rw [scatter, hwrites, List.foldl_append]
      show ((scatter cells (List.range values.length) values).setIfInBounds values.length
        value).toList = _
      have hcell : values.length < cells.toList.length := by
        rw [Array.length_toList]
        exact h
      rw [Array.toList_setIfInBounds, hwritten, List.set_append_right _ _ (Nat.le_refl _),
        Nat.sub_self, List.drop_eq_getElem_cons hcell, List.set_cons_zero, List.append_assoc]
      rfl

/-- Writing to every cell in its turn leaves just the values that were written. -/
theorem scatter_range {α : Type} {cells : Array α} {values : List α}
    (h : values.length = cells.size) :
    scatter cells (List.range cells.size) values = values.toArray := by
  refine Array.toList_inj.mp ?_
  rw [← h, toList_scatter_range (Nat.le_of_eq h), h, ← Array.length_toList, List.drop_length,
    List.append_nil]

/-- The bytes of truth values are those of the single cells. -/
theorem Storage.toBytes_bool (cells : Array (Scalar .bool)) :
    (Storage.mk .bool cells).toBytes = cells.toList.map fun cell ↦ cell.pattern >>> 0 % 256 :=
  List.map_eq_flatMap.symm

theorem gather_map {α β : Type} (f : α → β) (cells : Array α) (offsets : List Nat) :
    gather (cells.toList.map f).toArray offsets = (gather cells offsets).map f := by
  rw [gather, gather, List.map_filterMap]
  congr 1
  funext offset
  simp

namespace Tensor

open Layout

/-- All elements of the array can be read, and have the type that its layout says. -/
structure Valid (tensor : Tensor) : Prop where
  addressable : tensor.layout.Addressable
  dtype_eq : tensor.storage.dtype = tensor.layout.dtype
  requiredCells_le : tensor.layout.requiredCells ≤ tensor.storage.size

/-- The integer at given coordinates, if the array has a cell there. -/
def valueAt? (tensor : Tensor) (coords : List Nat) : Option Int :=
  (tensor.storage.cells[tensor.layout.offsetAt coords]?).map Scalar.value

/-- A new array has a buffer of just the size that its layout needs. -/
theorem zeros_eq_ok {platform : Platform} {layout : Layout} {tensor : Tensor}
    (h : zeros platform layout = .ok tensor) :
    tensor = ⟨layout, ⟨layout.dtype,
      Array.replicate layout.requiredCells (.ofPattern layout.dtype 0)⟩⟩ := by
  obtain ⟨storage, hstorage, heq⟩ := bind_eq_ok.mp h
  cases heq
  unfold Storage.zeroed at hstorage
  split at hstorage
  · cases hstorage
  · split at hstorage
    · cases hstorage
    · cases hstorage
      rfl

/-- Of the machine, only the limit for one buffer has an influence on a new array. -/
theorem zeros_eq_zeros {platform other : Platform} (h : platform.bufferLimit = other.bufferLimit)
    (layout : Layout) : zeros platform layout = zeros other layout := by
  simp only [zeros, Storage.zeroed, h]

/-- The array without gaps that holds these elements in this order. -/
def ofElements {dtype : DType} (values : List (Scalar dtype)) (extents : List Nat) (order : Order) :
    Tensor :=
  ⟨.packed extents order dtype, ⟨dtype, values.toArray⟩⟩

theorem valid_ofElements {dtype : DType} {values : List (Scalar dtype)} {extents : List Nat}
    (hvolume : volume extents < Size.limit) (hvalues : values.length = volume extents)
    (order : Order) : (ofElements values extents order).Valid where
  addressable := addressable_packed hvolume order dtype
  dtype_eq := rfl
  requiredCells_le := by
    show (packed extents order dtype).requiredCells ≤ values.toArray.size
    rw [requiredCells_packed hvolume, List.size_toArray, hvalues]

/-- A row-major cube without gaps that holds the numbers from 1 to 8. -/
def cube : Tensor :=
  ⟨.packed [2, 2, 2] .rowMajor .i8, ⟨.i8, #[⟨1⟩, ⟨2⟩, ⟨3⟩, ⟨4⟩, ⟨5⟩, ⟨6⟩, ⟨7⟩, ⟨8⟩]⟩⟩

theorem valid_cube : cube.Valid :=
  ⟨addressable_packed (by decide) .rowMajor .i8, rfl, by decide⟩

/-- Four bytes in two lines, with a gap between the lines. -/
def gapped (order : Order) (a b c d : Scalar .i8) : Tensor :=
  let strides :=
    match order with
    | .rowMajor => [3, 1]
    | .columnMajor => [1, 3]
  ⟨.make [2, 2] strides order .i8, ⟨.i8, #[a, b, ⟨99⟩, c, d]⟩⟩

theorem valid_gapped (order : Order) (a b c d : Scalar .i8) : (gapped order a b c d).Valid := by
  have haccepted : Layout.strided (gapped order a b c d).extents
      (gapped order a b c d).layout.strides order .i8 = .ok (gapped order a b c d).layout := by
    cases order <;> rfl
  refine ⟨addressable_of_strided haccepted, rfl, ?_⟩
  cases order <;> exact Nat.le_refl 5

/-- Writing all elements of an array without gaps leaves just these elements in it. -/
theorem write_packed {extents : List Nat} {order : Order} {dtype : DType}
    {cells : Array (Scalar dtype)} {values : List (Scalar dtype)}
    (hvolume : volume extents < Size.limit) (hcells : cells.size = volume extents)
    (hvalues : values.length = volume extents) :
    Tensor.write values ⟨.packed extents order dtype, ⟨dtype, cells⟩⟩ =
      .ok () (ofElements values extents order) := by
  have hsize : (Tensor.mk (.packed extents order dtype) ⟨dtype, cells⟩).size = values.length :=
    hvalues.symm
  have hoffsets : (packed extents order dtype).offsets = List.range cells.size := by
    rw [offsets_packed hvolume, hcells]
  rw [write, if_neg (by simp [hsize]), Storage.modify?, Storage.cells?_self]
  show EStateM.Result.ok () (Tensor.mk _ ⟨dtype, scatter cells _ values⟩) = _
  rw [hoffsets, scatter_range (hvalues.trans hcells.symm)]
  rfl

/-- In an array without gaps, the elements lie at their numbers. -/
theorem valueAt?_ofElements {dtype : DType} {values : List (Scalar dtype)} {extents : List Nat}
    (hvolume : volume extents < Size.limit) (order : Order) {coords : List Nat}
    (hbox : InBox extents coords) :
    (ofElements values extents order).valueAt? coords =
      (values[order.index extents coords]?).map Scalar.value := by
  rw [valueAt?]
  show (values.toArray[(packed extents order dtype).offsetAt coords]?).map _ = _
  rw [offsetAt_packed hvolume hbox, List.getElem?_toArray]
  rfl

/-! ## Ways to make an array -/

variable {tensor other : Tensor}

theorem valid_zeros {platform : Platform} {layout : Layout} (hlayout : layout.Addressable)
    (h : zeros platform layout = .ok tensor) : tensor.Valid := by
  rw [zeros_eq_ok h]
  exact ⟨hlayout, rfl, Nat.le_of_eq Array.size_replicate.symm⟩

/-- A buffer is made only if its cells fit into what the machine gives to one. -/
theorem le_of_zeroed_eq_ok {platform : Platform} {count : Nat} {dtype : DType} {storage : Storage}
    (h : Storage.zeroed platform count dtype = .ok storage) : count ≤ platform.bufferLimit := by
  unfold Storage.zeroed at h
  split at h
  · cases h
  · rename_i bytes hcount
    obtain ⟨_, rfl⟩ := Size.mul?_eq_some_iff.mp hcount
    split at h
    · cases h
    · rename_i hlimit
      exact (Nat.le_mul_of_pos_right count dtype.bytes_pos).trans (Nat.not_lt.mp hlimit)

/-- An array without gaps is valid even if it is not known that its elements can be counted: if they
cannot, it is too large to be made. -/
theorem valid_zeros_packed {platform : Platform} (hlimit : platform.bufferLimit < Size.largest)
    {extents : List Nat} {order : Order} {dtype : DType}
    (h : zeros platform (packed extents order dtype) = .ok tensor) : tensor.Valid := by
  by_cases hvolume : volume extents < Size.limit
  · exact valid_zeros (addressable_packed hvolume order dtype) h
  · obtain ⟨storage, hstorage, -⟩ := bind_eq_ok.mp h
    have hcells := le_of_zeroed_eq_ok hstorage
    rw [requiredCells_packed_of_le (Nat.not_lt.mp hvolume)] at hcells
    exact absurd hcells (Nat.not_le.mpr hlimit)

/-- An array is made of all elements that are given, in their order. -/
theorem ofList_eq_ok {platform : Platform} {dtype : DType} {values : List (Scalar dtype)}
    {extents : List Nat} (h : ofList platform values extents = .ok tensor) :
    values.length = Size.product extents ∧ tensor = ofElements values extents .rowMajor := by
  unfold ofList at h
  split at h
  · rename_i hlength
    obtain ⟨storage, hstorage, htensor⟩ := bind_eq_ok.mp h
    obtain ⟨_, -, hvalues⟩ := bind_eq_ok.mp hstorage
    cases hvalues
    cases htensor
    exact ⟨hlength, rfl⟩
  · cases h

theorem valid_ofList {platform : Platform} {dtype : DType} {values : List (Scalar dtype)}
    {extents : List Nat} (hvolume : volume extents < Size.limit)
    (h : ofList platform values extents = .ok tensor) : tensor.Valid := by
  obtain ⟨hlength, rfl⟩ := ofList_eq_ok h
  exact valid_ofElements hvolume (hlength.trans (product_eq_volume hvolume)) .rowMajor

/-- The buffer is read through another layout exactly if the layout has the element type of the
array and the buffer is not too short. -/
theorem withLayout_eq_ok_iff {layout : Layout} :
    tensor.withLayout layout = .ok other ↔
      layout.dtype = tensor.dtype ∧ layout.requiredCells ≤ tensor.storage.size ∧
        other = ⟨layout, tensor.storage⟩ := by
  unfold withLayout
  grind

theorem Valid.of_withLayout {layout : Layout} (htensor : tensor.Valid)
    (hlayout : layout.Addressable) (h : tensor.withLayout layout = .ok other) : other.Valid := by
  obtain ⟨hdtype, hcells, rfl⟩ := withLayout_eq_ok_iff.mp h
  exact ⟨hlayout, htensor.dtype_eq.trans hdtype.symm, hcells⟩

theorem Valid.of_transposed {i j : Nat} (htensor : tensor.Valid)
    (h : tensor.transposed i j = .ok other) : other.Valid := by
  obtain ⟨layout, hlayout, hother⟩ := bind_eq_ok.mp h
  exact htensor.of_withLayout (htensor.addressable.of_transpose hlayout) hother

/-- Writing keeps the layout, the element type and the size of the buffer. -/
theorem Valid.of_write {dtype : DType} {values : List (Scalar dtype)} (htensor : tensor.Valid)
    (h : Tensor.write values tensor = .ok () other) : other.Valid := by
  obtain ⟨layout, ⟨held, cells⟩⟩ := tensor
  unfold write at h
  split at h
  · cases h
  -- A write of another element type is refused before it reaches the buffer.
  · by_cases hdtype : held = dtype
    · subst hdtype
      simp only [Storage.modify?, Storage.cells?_self] at h
      cases h
      refine ⟨htensor.addressable, htensor.dtype_eq, ?_⟩
      show layout.requiredCells ≤ (scatter cells layout.offsets values).size
      rw [size_scatter]
      exact htensor.requiredCells_le
    · simp [Storage.modify?, Storage.cells?, hdtype, Except.map] at h

end Tensor

end ArrayEngine
