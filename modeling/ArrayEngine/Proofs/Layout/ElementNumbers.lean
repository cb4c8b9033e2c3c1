import ArrayEngine.Proofs.Layout.Addressable

/-!
# Element numbers, coordinates and offsets

The offset of an element is found in three ways: from a uniform stride, with 32-bit divisions or
with 64-bit divisions. `offsetOf?` follows each of them with checked arithmetic, which gives up at
a division by zero and at the first sum or product that is no size. `element_offsets` says of an
accepted layout that no element makes it give up, that all ways lead to the offset of the
coordinates, and that the elements are numbered in the lexicographic order of their coordinates.
-/

namespace ArrayEngine

/-! ## Lexicographic order -/

namespace Order

variable {order : Order} {extents : List Nat} {i j : Nat}

/-- The entries of a list with one entry per axis, from the slowest axis to the fastest. -/
def slowestFirst {α : Type} (order : Order) (entries : List α) : List α :=
  match order with
  | rowMajor => entries
  | columnMajor => entries.reverse

theorem slowestFirst_arrange {α : Type} (order : Order) (entries : List α) :
    order.slowestFirst (order.arrange entries) = entries.reverse := by
  cases order <;> rfl

/-- Every element has coordinates of its own, and all coordinates within the extents are those of an
element. -/
theorem bijOn_coords (order : Order) (extents : List Nat) :
    Set.BijOn (order.coords extents) {i | i < Layout.volume extents}
      {coords | Layout.InBox extents coords} := by
  refine ⟨fun i hi ↦ inBox_coords hi, fun i hi j hj heq ↦ ?_, fun coords hbox ↦ ?_⟩
  · rw [← index_coords hi, heq, index_coords hj]
  · exact ⟨order.index extents coords, index_lt hbox, coords_index hbox⟩

end Order

namespace Layout

/-- Lists of the same length keep their lexicographic order if entries are added behind them. -/
theorem append_lt_append {xs ys : List Nat} (hlength : xs.length = ys.length) (h : xs < ys)
    (us vs : List Nat) : xs ++ us < ys ++ vs := by
  induction xs generalizing ys with
  | nil =>
      obtain rfl : ys = [] := List.eq_nil_of_length_eq_zero hlength.symm
      exact absurd h (List.lt_irrefl [])
  | cons x xs ih =>
      cases ys with
      | nil => simp at hlength
      | cons y ys =>
          rw [List.cons_append, List.cons_append]
          refine List.cons_lt_cons_iff.mpr ?_
          rcases List.cons_lt_cons_iff.mp h with hhead | ⟨hhead, htail⟩
          · exact .inl hhead
          · exact .inr ⟨hhead, ih (Nat.succ.inj hlength) htail⟩

/-- Read from the slowest one on, the digits of a larger number are lexicographically larger. -/
theorem reverse_digits_lt {extents : List Nat} {i j : Nat} (hlt : i < j)
    (hj : j < volume extents) : (digits extents i).reverse < (digits extents j).reverse := by
  induction extents generalizing i j with
  | nil =>
      have hzero : j < 1 := hj
      omega
  | cons extent rest ih =>
      rw [digits, digits, List.reverse_cons, List.reverse_cons]
      rcases Nat.lt_or_eq_of_le (Nat.div_le_div_right hlt.le (c := extent)) with hslow | hslow
      · exact append_lt_append (by simp) (ih hslow (Nat.div_lt_of_lt_mul hj)) _ _
      · -- The slower digits are the same, so that the fastest one decides.
        have hfast : i % extent < j % extent := by
          have hi := Nat.mod_add_div i extent
          have hj := Nat.mod_add_div j extent
          rw [hslow] at hi
          omega
        rw [hslow]
        exact List.append_left_lt (List.cons_lt_cons_iff.mpr (.inl hfast))

end Layout

/-- The coordinates of the elements ascend lexicographically, the slowest axis first. -/
theorem Order.slowestFirst_coords_lt {order : Order} {extents : List Nat} {i j : Nat}
    (hlt : i < j) (hj : j < Layout.volume extents) :
    order.slowestFirst (order.coords extents i) <
      order.slowestFirst (order.coords extents j) := by
  rw [Order.coords, Order.coords, slowestFirst_arrange, slowestFirst_arrange]
  exact Layout.reverse_digits_lt hlt (by rwa [Order.volume_arrange])

/-! ## Checked arithmetic -/

namespace Layout

/-- The offset that division finds on these axes, added to an offset. There is none if a divisor is
zero, or if a sum or product on the way is no size. -/
def offsetAlong? : Nat → List Axis → Nat → Option Nat
  | offset, [], _ => some offset
  | offset, axis :: rest, i =>
      if axis.extent = 0 then none
      else
        (Size.mul? (i % axis.extent) axis.stride).bind fun product ↦
          (Size.add? offset product).bind fun sum ↦ offsetAlong? sum rest (i / axis.extent)

/-- The offset of the `i`-th element, found with checked arithmetic. -/
def offsetOf? (layout : Layout) (i : Nat) : Option Nat :=
  match layout.uniformStride with
  | some stride => Size.mul? i stride
  | none => offsetAlong? 0 layout.walk i

end Layout

namespace Indexer

/-- The offset that 32-bit division finds on these axes, added to an offset. There is none if a
divisor is zero, or if a sum or product on the way is no size. -/
def offsetAlongNarrow? : Nat → List (UInt32 × Nat) → UInt32 → Option Nat
  | offset, [], _ => some offset
  | offset, (extent, stride) :: rest, i =>
      if extent = 0 then none
      else
        (Size.mul? (i % extent).toNat stride).bind fun product ↦
          (Size.add? offset product).bind fun sum ↦ offsetAlongNarrow? sum rest (i / extent)

/-- The offset of the `i`-th element, found with checked arithmetic. -/
def offsetOf? (indexer : Indexer) (i : Nat) : Option Nat :=
  match indexer.layout.uniformStride with
  | some stride => Size.mul? i stride
  | none =>
      if indexer.table.narrow then offsetAlongNarrow? 0 indexer.narrowWalk (UInt32.ofNat i)
      else Layout.offsetAlong? 0 indexer.walk i

end Indexer

namespace Layout

/-- The partial sums of an offset are at most the offset, so that only the whole has to be a
size. -/
theorem offsetAlong?_eq {axes : List Axis} (hextents : 0 ∉ axes.map Axis.extent) {offset i : Nat}
    (hlimit : offset + offsetAlong axes i < Size.limit) :
    offsetAlong? offset axes i = some (offset + offsetAlong axes i) := by
  induction axes generalizing offset i with
  | nil => rfl
  | cons axis rest ih =>
      obtain ⟨hextent, hrest⟩ := not_or.mp (List.mem_cons.not.mp hextents)
      rw [offsetAlong, ← Nat.add_assoc] at hlimit ⊢
      have hproduct : Size.mul? (i % axis.extent) axis.stride =
          some (i % axis.extent * axis.stride) :=
        Size.mul?_eq_some_iff.mpr ⟨by omega, rfl⟩
      have hsum : Size.add? offset (i % axis.extent * axis.stride) =
          some (offset + i % axis.extent * axis.stride) :=
        Size.add?_eq_some_iff.mpr ⟨by omega, rfl⟩
      rw [offsetAlong?, if_neg (Ne.symm hextent), hproduct, Option.bind_some, hsum,
        Option.bind_some, ih hrest hlimit]

end Layout

namespace Indexer

/-- On 32-bit numbers the two divisions go through the same sums and products. -/
theorem offsetAlongNarrow?_eq {axes : List Axis} {offset i : Nat}
    (haxes : ∀ axis ∈ axes, axis.extent < 2 ^ 32) (hi : i < 2 ^ 32) :
    offsetAlongNarrow? offset (axes.map fun axis ↦ (UInt32.ofNat axis.extent, axis.stride))
        (UInt32.ofNat i) = Layout.offsetAlong? offset axes i := by
  induction axes generalizing offset i with
  | nil => rfl
  | cons axis rest ih =>
      have hextent : axis.extent < 2 ^ 32 := haxes axis (by simp)
      have hzero : UInt32.ofNat axis.extent = 0 ↔ axis.extent = 0 := by
        rw [← UInt32.toNat_inj, UInt32.toNat_ofNat_of_lt' hextent]
        rfl
      have hquotient : UInt32.ofNat i / UInt32.ofNat axis.extent = UInt32.ofNat (i / axis.extent) :=
        (UInt32.ofNat_div hi hextent).symm
      have hrest (sum : Nat) : offsetAlongNarrow? sum _ (UInt32.ofNat (i / axis.extent)) = _ :=
        ih (fun axis h ↦ haxes axis (by simp [h]))
          (Nat.lt_of_le_of_lt (Nat.div_le_self i axis.extent) hi)
      simp only [List.map_cons, offsetAlongNarrow?, Layout.offsetAlong?, hzero, hquotient,
        toNat_ofNat_mod hi hextent, hrest]

end Indexer

/-! ## Accepted layouts -/

namespace Layout

variable {layout : Layout}

namespace Addressable

variable (hlayout : layout.Addressable) {i : Nat} (hi : i < layout.size)

include hlayout hi

/-- No division by an axis fails, since there is an element. -/
theorem zero_notMem_extents_walk : 0 ∉ layout.walk.map Axis.extent := by
  rw [map_extent_walk hlayout.length_strides, ← volume_pos_iff, Order.volume_arrange]
  exact Nat.zero_lt_of_lt hi

/-- Checked 64-bit division finds the offset of every element. -/
theorem offsetAlong?_walk :
    offsetAlong? 0 layout.walk i =
      some (layout.offsetAt (layout.order.coords layout.extents i)) := by
  have hoffset := hlayout.offsetOf_lt hi
  have hlargest : Size.largest < Size.limit := by decide
  rw [hlayout.offsetOf_eq hi] at hoffset
  rw [← offsetAlong_walk hlayout.length_strides] at hoffset ⊢
  rw [offsetAlong?_eq (hlayout.zero_notMem_extents_walk hi) (by omega), Nat.zero_add]

/-- The multiple of a uniform stride is a size. -/
theorem mul?_uniformStride {uniform : Nat} (h : layout.uniformStride = some uniform) :
    Size.mul? i uniform = some (layout.offsetAt (layout.order.coords layout.extents i)) := by
  have hoffset := hlayout.offsetOf_lt hi
  have hlargest : Size.largest < Size.limit := by decide
  have hmultiple : layout.offsetOf i = i * uniform := by rw [offsetOf, h]
  rw [hmultiple] at hoffset
  rw [← hlayout.offsetOf_eq hi, hmultiple]
  exact Size.mul?_eq_some_iff.mpr ⟨by omega, rfl⟩

/-- Checked arithmetic finds the offset of every element of a layout. -/
theorem offsetOf?_eq :
    layout.offsetOf? i = some (layout.offsetAt (layout.order.coords layout.extents i)) := by
  rw [offsetOf?]
  cases huniform : layout.uniformStride with
  | some uniform => exact hlayout.mul?_uniformStride hi huniform
  | none => exact hlayout.offsetAlong?_walk hi

/-- Checked arithmetic finds the offset of every element for an indexer, on each of its ways. -/
theorem offsetOf?_ofLayout :
    (Indexer.ofLayout layout).offsetOf? i =
      some (layout.offsetAt (layout.order.coords layout.extents i)) := by
  have hlayout_eq : (Indexer.ofLayout layout).layout = layout := rfl
  rw [Indexer.offsetOf?, hlayout_eq]
  cases huniform : layout.uniformStride with
  | some uniform => exact hlayout.mul?_uniformStride hi huniform
  | none =>
      rcases hlayout.narrow_cases (Nat.zero_lt_of_lt hi) with
        ⟨htable, hsize, haxes, hwalk⟩ | htable
      · simp only [htable, if_true]
        rw [hwalk, Indexer.offsetAlongNarrow?_eq haxes (Nat.lt_trans hi hsize)]
        exact hlayout.offsetAlong?_walk hi
      · simp only [htable, Bool.false_eq_true, if_false]
        exact hlayout.offsetAlong?_walk hi

end Addressable

/-- In an accepted layout, the offset of every element is the sum of its coordinates, each times the
stride of its axis, whether it is found for the layout or by an indexer and on whichever of their
ways. It lies below the required number of cells, and no step on the way to it is too large for the
machine. The elements are in one-to-one correspondence with the coordinates within the extents, in
lexicographic order with the fastest axis last. -/
theorem element_offsets {extents strides : List Nat} {order : Order} {dtype : DType}
    (hlayout : strided extents strides order dtype = .ok layout) :
    (∀ i < layout.size,
      layout.offsetOf i = layout.offsetAt ((Indexer.ofLayout layout).coordsOf i) ∧
      (Indexer.ofLayout layout).offsetOf i =
        layout.offsetAt ((Indexer.ofLayout layout).coordsOf i) ∧
      layout.offsetAt ((Indexer.ofLayout layout).coordsOf i) < layout.requiredCells ∧
      layout.offsetOf? i = some (layout.offsetOf i) ∧
      (Indexer.ofLayout layout).offsetOf? i = some ((Indexer.ofLayout layout).offsetOf i)) ∧
    Set.BijOn (Indexer.ofLayout layout).coordsOf {i | i < layout.size}
      {coords | InBox extents coords} ∧
    ∀ i j, i < j → j < layout.size →
      order.slowestFirst ((Indexer.ofLayout layout).coordsOf i) <
        order.slowestFirst ((Indexer.ofLayout layout).coordsOf j) := by
  have haddressable := addressable_of_strided hlayout
  obtain ⟨_, hlength, _, _, rfl⟩ := strided_eq_ok_iff.mp hlayout
  have hcoords : (Indexer.ofLayout (make extents strides order dtype)).coordsOf =
      order.coords extents :=
    funext (coordsOf_ofLayout hlength)
  rw [hcoords]
  refine ⟨fun i hi ↦ ?_, order.bijOn_coords extents, fun i j ↦ order.slowestFirst_coords_lt⟩
  have hlayoutOffset := haddressable.offsetOf_eq hi
  have hindexerOffset := haddressable.offsetOf_ofLayout hi
  refine ⟨hlayoutOffset, hindexerOffset.trans hlayoutOffset,
    haddressable.offsetAt_lt_requiredCells (Order.inBox_coords hi), ?_, ?_⟩
  · rw [hlayoutOffset]
    exact haddressable.offsetOf?_eq hi
  · rw [hindexerOffset, hlayoutOffset]
    exact haddressable.offsetOf?_ofLayout hi

/-- Three times the same column, too long to be counted with 32 bits. -/
def wideColumns : Layout :=
  make [2 ^ 32, 3] [5, 0] .columnMajor .f64

/-- The last element of a column-major array whose fastest axis is longer than any 32-bit number and
whose slowest one stands still. -/
theorem element_offsets_wide :
    strided [2 ^ 32, 3] [5, 0] .columnMajor .f64 = .ok wideColumns ∧
      3 * 2 ^ 32 - 1 < wideColumns.size ∧
      (Indexer.ofLayout wideColumns).offsetOf? (3 * 2 ^ 32 - 1) = some ((2 ^ 32 - 1) * 5) := by
  have hlayout : strided [2 ^ 32, 3] [5, 0] .columnMajor .f64 = .ok wideColumns := rfl
  have hi : 3 * 2 ^ 32 - 1 < wideColumns.size := by decide
  obtain ⟨_, hoffset, _, _, hchecked⟩ := (element_offsets hlayout).1 _ hi
  refine ⟨hlayout, hi, ?_⟩
  rw [hchecked, hoffset]
  rfl

end Layout

end ArrayEngine
