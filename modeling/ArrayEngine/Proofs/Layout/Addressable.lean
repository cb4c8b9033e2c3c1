import ArrayEngine.Proofs.Layout.Coordinates
import Mathlib.Order.Bounds.Defs
import Mathlib.Tactic.Ring

/-!
# Layouts that a machine can address

`Addressable` is what holds of every layout that the library builds and whose elements it may read:
the uniform stride is the one of the extents and strides, the elements can be counted, and every
offset is a size. `Addressable.offsetOf_eq` says that the offset of an element number, with or
without a uniform stride, is the offset of its coordinates, and `Addressable.offsetOf_ofLayout` that
an indexer finds the same offset with 32-bit divisions.
-/

namespace ArrayEngine

namespace Layout

/-! ## Uniform strides -/

/-- An axis with a single coordinate does not matter. -/
theorem uniformAlong_unit {axis : Axis} (h : axis.extent = 1) (base : Option Nat) (span : Nat)
    (rest : List Axis) : uniformAlong base span (axis :: rest) = uniformAlong base span rest := by
  simp [uniformAlong, h]

/-- The first axis with more than one coordinate gives the stride. -/
theorem uniformAlong_none_eq_some_iff {axis : Axis} (h : axis.extent ≠ 1) {span uniform : Nat}
    {rest : List Axis} :
    uniformAlong none span (axis :: rest) = some uniform ↔
      axis.stride ≠ 0 ∧ span * axis.extent < Size.limit ∧
        uniformAlong (some axis.stride) (span * axis.extent) rest = some uniform := by
  rw [uniformAlong, if_neg h]
  grind [Size.mul?]

/-- Each further axis with more than one coordinate steps over the elements passed so far. -/
theorem uniformAlong_some_eq_some_iff {axis : Axis} (h : axis.extent ≠ 1)
    {stride span uniform : Nat} {rest : List Axis} :
    uniformAlong (some stride) span (axis :: rest) = some uniform ↔
      stride * span < Size.limit ∧ axis.stride = stride * span ∧
        span * axis.extent < Size.limit ∧
        uniformAlong (some stride) (span * axis.extent) rest = some uniform := by
  rw [uniformAlong, if_neg h]
  grind [Size.mul?]

/-- Behind axes with `span` elements, the offset grows by `stride * span` with each element. -/
theorem offsetAlong_of_uniformAlong_some {axes : List Axis} {stride span uniform : Nat}
    (h : uniformAlong (some stride) span axes = some uniform) :
    uniform = stride ∧ ∀ i < volume (axes.map Axis.extent),
      offsetAlong axes i = i * (stride * span) := by
  induction axes generalizing span with
  | nil =>
      refine ⟨by simpa [uniformAlong] using h.symm, ?_⟩
      intro i hi
      have hzero : i = 0 := by simpa using hi
      simp [hzero]
  | cons axis rest ih =>
      by_cases hunit : axis.extent = 1
      · rw [uniformAlong_unit hunit] at h
        obtain ⟨huniform, hoffset⟩ := ih h
        refine ⟨huniform, ?_⟩
        intro i hi
        have hrest := hoffset i (by simpa [hunit] using hi)
        simp [offsetAlong, hunit, hrest, Nat.mod_one]
      · obtain ⟨_, hstride, _, hrest⟩ := (uniformAlong_some_eq_some_iff hunit).mp h
        obtain ⟨huniform, hoffset⟩ := ih hrest
        -- The digit moves by `stride * span`, and the quotient by that times the extent.
        refine ⟨huniform, ?_⟩
        intro i hi
        rw [offsetAlong, hoffset _ (Nat.div_lt_of_lt_mul hi), hstride]
        conv_rhs => rw [← Nat.mod_add_div i axis.extent]
        ring

/-- With a uniform stride along all axes, the `i`-th element lies at `i` times this stride. -/
theorem offsetAlong_of_uniformAlong {axes : List Axis} {uniform : Nat}
    (h : uniformAlong none 1 axes = some uniform) {i : Nat}
    (hi : i < volume (axes.map Axis.extent)) : offsetAlong axes i = i * uniform := by
  induction axes with
  | nil =>
      have hzero : i = 0 := by simpa using hi
      simp [hzero]
  | cons axis rest ih =>
      by_cases hunit : axis.extent = 1
      · rw [uniformAlong_unit hunit] at h
        have hrest := ih h (by simpa [hunit] using hi)
        simp [offsetAlong, hunit, hrest, Nat.mod_one]
      · obtain ⟨_, _, hrest⟩ := (uniformAlong_none_eq_some_iff hunit).mp h
        obtain ⟨rfl, hoffset⟩ := offsetAlong_of_uniformAlong_some hrest
        rw [offsetAlong, hoffset _ (Nat.div_lt_of_lt_mul hi)]
        conv_rhs => rw [← Nat.mod_add_div i axis.extent]
        ring

/-- A checked product of extents is the product, if it is a size. -/
theorem eq_mul_volume_of_foldlM {extents : List Nat} {first count : Nat}
    (hfirst : first < Size.limit) (h : extents.foldlM Size.mul? first = some count) :
    count < Size.limit ∧ count = first * volume extents := by
  induction extents generalizing first with
  | nil =>
      obtain rfl : first = count := by simpa using h
      simpa using hfirst
  | cons extent rest ih =>
      obtain ⟨product, hproduct, hrest⟩ := Option.bind_eq_some_iff.mp h
      obtain ⟨hlimit, rfl⟩ := Size.mul?_eq_some_iff.mp hproduct
      obtain ⟨hcount, hvolume⟩ := ih hlimit hrest
      exact ⟨hcount, by rw [hvolume, volume_cons, Nat.mul_assoc]⟩

theorem eq_volume_of_count? {extents : List Nat} {count : Nat}
    (h : Size.count? extents = some count) : count < Size.limit ∧ count = volume extents := by
  simpa using eq_mul_volume_of_foldlM (by decide) h

theorem foldl_mulWrapped (start : Nat) (extents : List Nat) :
    extents.foldl Size.mulWrapped (start % Size.limit) = start * volume extents % Size.limit := by
  induction extents generalizing start with
  | nil => rw [volume, Nat.mul_one, List.foldl_nil]
  | cons extent rest ih =>
      rw [List.foldl_cons, Size.mulWrapped, Nat.mod_mul_mod, ih, volume, Nat.mul_assoc]

/-- Extents whose elements can be counted have the number of elements as their product. -/
theorem product_eq_volume {extents : List Nat} (h : volume extents < Size.limit) :
    Size.product extents = volume extents := by
  have hproduct := foldl_mulWrapped 1 extents
  rw [Nat.one_mul, Nat.mod_eq_of_lt h] at hproduct
  exact hproduct

/-! ## The last offset -/

/-- The offset of the element with the largest coordinates, or zero along an axis without any. -/
def lastOffset (extents strides : List Nat) : Nat :=
  (List.zipWith (fun extent stride ↦ (extent - 1) * stride) extents strides).sum

@[simp] theorem lastOffset_cons (extent stride : Nat) (extents strides : List Nat) :
    lastOffset (extent :: extents) (stride :: strides) =
      (extent - 1) * stride + lastOffset extents strides := by
  simp [lastOffset]

/-- One step of the checked sum. -/
theorem add?_mul?_eq_some_iff {first extent stride next : Nat} :
    (do Size.add? first (← Size.mul? (extent - 1) stride)) = some next ↔
      first + (extent - 1) * stride < Size.limit ∧ first + (extent - 1) * stride = next := by
  refine Option.bind_eq_some_iff.trans ⟨?_, fun ⟨hlimit, hnext⟩ ↦ ?_⟩
  · rintro ⟨product, hproduct, hsum⟩
    rw [Size.mul?_eq_some_iff] at hproduct
    rw [Size.add?_eq_some_iff] at hsum
    omega
  · exact ⟨(extent - 1) * stride, Size.mul?_eq_some_iff.mpr ⟨by omega, rfl⟩,
      Size.add?_eq_some_iff.mpr ⟨hlimit, hnext⟩⟩

/-- A checked sum of last coordinates times strides is the sum, if it is a size. -/
theorem foldlM_eq_some_iff {extents strides : List Nat} {first last : Nat}
    (hfirst : first < Size.limit) :
    (extents.zip strides).foldlM
        (fun last (extent, stride) ↦ do Size.add? last (← Size.mul? (extent - 1) stride)) first =
      some last ↔
    first + lastOffset extents strides < Size.limit ∧
      first + lastOffset extents strides = last := by
  induction extents generalizing first strides with
  | nil => simp [lastOffset, hfirst]
  | cons extent rest ih =>
      cases strides with
      | nil => simp [lastOffset, hfirst]
      | cons stride strides =>
          rw [List.zip_cons_cons, List.foldlM_cons, lastOffset_cons, ← Nat.add_assoc]
          refine Option.bind_eq_some_iff.trans ⟨?_, fun ⟨hlimit, hlast⟩ ↦ ?_⟩
          · rintro ⟨next, hnext, hrest⟩
            obtain ⟨hlimit, rfl⟩ := add?_mul?_eq_some_iff.mp hnext
            exact (ih hlimit).mp hrest
          · have hnext : first + (extent - 1) * stride < Size.limit := by omega
            exact ⟨_, add?_mul?_eq_some_iff.mpr ⟨hnext, rfl⟩, (ih hnext).mpr ⟨hlimit, hlast⟩⟩

/-- The span of a layout is one more than its last offset, if that is a size. -/
theorem span?_eq_some_iff {extents strides : List Nat} {span : Nat} :
    span? extents strides = some span ↔
      0 ∈ extents ∧ span = 0 ∨
      0 ∉ extents ∧ lastOffset extents strides < Size.largest ∧
        span = lastOffset extents strides + 1 := by
  have hpos : 0 < Size.limit := by decide
  have hlargest : Size.largest + 1 = Size.limit := by decide
  rw [span?]
  by_cases hzero : 0 ∈ extents
  · simp [hzero, eq_comm]
  · rw [if_neg (by simpa using hzero)]
    refine Option.bind_eq_some_iff.trans ⟨?_, fun h ↦ ?_⟩
    · rintro ⟨last, hlast, hspan⟩
      rw [foldlM_eq_some_iff hpos] at hlast
      rw [Size.add?_eq_some_iff] at hspan
      exact .inr ⟨hzero, by omega, by omega⟩
    · rcases h with ⟨hmem, _⟩ | ⟨_, hlast, hspan⟩
      · exact absurd hmem hzero
      · exact ⟨_, (foldlM_eq_some_iff hpos).mpr ⟨by omega, rfl⟩,
          Size.add?_eq_some_iff.mpr ⟨by omega, by omega⟩⟩

/-- No element lies behind the last offset. -/
theorem sum_le_lastOffset {extents coords : List Nat} (h : InBox extents coords)
    (strides : List Nat) :
    (List.zipWith (· * ·) coords strides).sum ≤ lastOffset extents strides := by
  induction h generalizing strides with
  | nil => simp
  | @cons coord extent coords extents hcoord _ ih =>
      cases strides with
      | nil => simp
      | cons stride strides =>
          have hhead : coord * stride ≤ (extent - 1) * stride := Nat.mul_le_mul_right _ (by omega)
          have hrest := ih strides
          simp only [List.zipWith_cons_cons, List.sum_cons, lastOffset_cons]
          omega

/-- The largest coordinates along each axis. -/
theorem inBox_pred {extents : List Nat} (h : 0 ∉ extents) :
    InBox extents (extents.map (· - 1)) := by
  induction extents with
  | nil => simp
  | cons extent rest ih =>
      simp only [List.mem_cons, not_or] at h
      exact inBox_cons.mpr ⟨Nat.pred_lt (Ne.symm h.1), ih h.2⟩

/-- The last offset is the offset of the largest coordinates. -/
theorem sum_pred (extents strides : List Nat) :
    (List.zipWith (· * ·) (extents.map (· - 1)) strides).sum = lastOffset extents strides := by
  rw [lastOffset, List.zipWith_map_left]

/-! ## Addressable layouts -/

/-- A 64-bit machine can count and address the elements of the layout. -/
structure Addressable (layout : Layout) : Prop where
  length_strides : layout.strides.length = layout.extents.length
  uniformStride_eq :
    layout.uniformStride = findUniformStride layout.extents layout.strides layout.order
  size_lt : layout.size < Size.limit
  offsetAt_lt {coords : List Nat} :
    InBox layout.extents coords → layout.offsetAt coords < Size.largest

/-- Given strides are accepted exactly when there are not too many axes and everything is a size. -/
theorem strided_eq_ok_iff {extents strides : List Nat} {order : Order} {dtype : DType}
    {layout : Layout} :
    strided extents strides order dtype = .ok layout ↔
      extents.length ≤ maxRank ∧ strides.length = extents.length ∧
        (span? extents strides).isSome ∧ (Size.count? extents).isSome ∧
        layout = make extents strides order dtype := by
  unfold strided
  cases span? extents strides <;> cases Size.count? extents <;> grind

/-- Every layout that is accepted with given strides is addressable. -/
theorem addressable_of_strided {extents strides : List Nat} {order : Order} {dtype : DType}
    {layout : Layout} (h : strided extents strides order dtype = .ok layout) :
    layout.Addressable := by
  obtain ⟨_, hlength, hspan, hcount, rfl⟩ := strided_eq_ok_iff.mp h
  obtain ⟨span, hspan⟩ := Option.isSome_iff_exists.mp hspan
  obtain ⟨count, hcount⟩ := Option.isSome_iff_exists.mp hcount
  obtain ⟨hlimit, rfl⟩ := eq_volume_of_count? hcount
  refine ⟨hlength, rfl, hlimit, ?_⟩
  intro coords hbox
  -- With coordinates there is an element, so that the checked span bounds its offset.
  have hzero : 0 ∉ extents := volume_pos_iff.mp (Nat.zero_lt_of_lt (number_lt hbox))
  have hle := sum_le_lastOffset hbox strides
  rcases span?_eq_some_iff.mp hspan with ⟨hmem, _⟩ | ⟨_, hlast, _⟩
  · exact absurd hmem hzero
  · exact Nat.lt_of_le_of_lt hle hlast

/-! ### Layouts without gaps -/

@[simp] theorem length_packedStrides (stride : Nat) (extents : List Nat) :
    (packedStrides stride extents).length = extents.length := by
  induction extents generalizing stride with
  | nil => rfl
  | cons extent rest ih => simp [packedStrides, ih]

/-- The strides without gaps weigh the digits of a number as the mixed radix does. -/
theorem sum_packedStrides {extents coords : List Nat} {stride : Nat}
    (hlimit : stride * volume extents < Size.limit) (hbox : InBox extents coords) :
    (List.zipWith (· * ·) coords (packedStrides stride extents)).sum =
      stride * number extents coords := by
  induction hbox generalizing stride with
  | nil => rfl
  | @cons coord extent coords extents hcoord hbox ih =>
      rw [volume_cons, ← Nat.mul_assoc] at hlimit
      have hpos : 0 < volume extents := Nat.zero_lt_of_lt (number_lt hbox)
      have hwider : stride * extent < Size.limit :=
        Nat.lt_of_le_of_lt (Nat.le_mul_of_pos_right _ hpos) hlimit
      have hclamped : Size.mulClamped stride extent = stride * extent :=
        Nat.min_eq_left (Nat.le_pred_of_lt hwider)
      rw [packedStrides, hclamped, List.zipWith_cons_cons, List.sum_cons, ih hlimit, number]
      ring

/-- Without gaps, the offset of an element is its number. -/
theorem offsetAt_packed {extents coords : List Nat} {order : Order} {dtype : DType}
    (hlimit : volume extents < Size.limit) (hbox : InBox extents coords) :
    (packed extents order dtype).offsetAt coords = order.index extents coords := by
  have hstrides : order.arrange (packed extents order dtype).strides =
      packedStrides 1 (order.arrange extents) := Order.arrange_arrange order _
  have hlength : coords.length = (packed extents order dtype).strides.length := by
    rw [← order.length_arrange (packed extents order dtype).strides, hstrides]
    simpa using hbox.length_eq
  rw [offsetAt, ← Order.sum_arrange order, Order.arrange_zipWith order _ hlength, hstrides,
    sum_packedStrides (by simpa using hlimit) ((Order.inBox_arrange order).mpr hbox), Nat.one_mul,
    Order.index]

/-- A layout without gaps is addressable if its elements can be counted. -/
theorem addressable_packed {extents : List Nat} (h : volume extents < Size.limit) (order : Order)
    (dtype : DType) : (packed extents order dtype).Addressable where
  length_strides := by simp [packed, make]
  uniformStride_eq := rfl
  size_lt := h
  offsetAt_lt {coords} hbox := by
    have hbox : InBox extents coords := hbox
    have hindex : order.index extents coords < volume extents := Order.index_lt hbox
    rw [offsetAt_packed h hbox]
    exact Nat.lt_of_lt_of_le hindex (Nat.le_pred_of_lt h)

/-- A clamped product of extents is the product, if the elements behind them can be counted too. -/
theorem mulClamped_eq {first extent rest : Nat} (hrest : 0 < rest)
    (h : first * (extent * rest) < Size.limit) :
    first * extent < Size.limit ∧ Size.mulClamped first extent = first * extent := by
  have hle : first * extent ≤ first * (extent * rest) :=
    Nat.mul_le_mul_left first (Nat.le_mul_of_pos_right extent hrest)
  have hlargest : Size.largest + 1 = Size.limit := by decide
  exact ⟨by omega, Nat.min_eq_left (by omega)⟩

/-- Strides without gaps step over just the elements that were passed. -/
theorem uniformAlong_some_packedStrides {extents : List Nat} {span : Nat}
    (hpos : 0 < volume extents) (hlimit : span * volume extents < Size.limit) :
    uniformAlong (some 1) span (extents.zipWith Axis.mk (packedStrides span extents)) =
      some 1 := by
  induction extents generalizing span with
  | nil => rfl
  | cons extent rest ih =>
      rw [volume_cons] at hpos hlimit
      have hrest : 0 < volume rest := Nat.pos_of_mul_pos_left hpos
      obtain ⟨hproduct, hclamped⟩ := mulClamped_eq hrest hlimit
      have hextent : 0 < extent := Nat.pos_of_mul_pos_right hpos
      have hspan : span < Size.limit :=
        Nat.lt_of_le_of_lt (Nat.le_mul_of_pos_right span hextent) hproduct
      have hbehind := ih hrest (by rwa [← Nat.mul_assoc] at hlimit)
      rw [packedStrides, hclamped, List.zipWith_cons_cons]
      by_cases hunit : extent = 1
      · rw [uniformAlong_unit hunit]
        simpa [hunit] using hbehind
      · exact (uniformAlong_some_eq_some_iff hunit).mpr ⟨by omega, by simp, hproduct, hbehind⟩

theorem uniformAlong_none_packedStrides {extents : List Nat} (hpos : 0 < volume extents)
    (hlimit : volume extents < Size.limit) :
    uniformAlong none 1 (extents.zipWith Axis.mk (packedStrides 1 extents)) = some 1 := by
  induction extents with
  | nil => rfl
  | cons extent rest ih =>
      rw [volume_cons] at hpos hlimit
      have hrest : 0 < volume rest := Nat.pos_of_mul_pos_left hpos
      have hlimit' : 1 * (extent * volume rest) < Size.limit := by omega
      obtain ⟨hproduct, hclamped⟩ := mulClamped_eq hrest hlimit'
      rw [packedStrides, hclamped, List.zipWith_cons_cons]
      by_cases hunit : extent = 1
      · have hbehind := ih hrest (by simpa [hunit] using hlimit)
        rw [uniformAlong_unit hunit]
        simpa [hunit] using hbehind
      · have hbehind := uniformAlong_some_packedStrides hrest (by rwa [← Nat.mul_assoc] at hlimit')
        exact (uniformAlong_none_eq_some_iff hunit).mpr ⟨by simp, hproduct, hbehind⟩

/-- In a layout without gaps whose elements can be counted, the `i`-th element lies at `i`. -/
theorem isPacked_packed {extents : List Nat} (h : (Size.count? extents).isSome) (order : Order)
    (dtype : DType) : (packed extents order dtype).isPacked := by
  obtain ⟨count, hcount⟩ := Option.isSome_iff_exists.mp h
  obtain ⟨hlimit, rfl⟩ := eq_volume_of_count? hcount
  have hlength : extents.length =
      (order.arrange (packedStrides 1 (order.arrange extents))).length := by simp
  rw [isPacked, packed]
  show (findUniformStride extents _ order == some 1) = true
  rw [findUniformStride, hcount]
  by_cases hone : volume extents ≤ 1
  · rw [if_pos (by simpa using hone)]
    rfl
  · rw [if_neg (by simpa using hone), Order.arrange_zipWith _ _ hlength, Order.arrange_arrange,
      uniformAlong_none_packedStrides (by simp; omega) (by simpa using hlimit)]
    rfl

namespace Addressable

variable {layout : Layout} (hlayout : layout.Addressable)

include hlayout

/-- The axes of the walk hold as many elements as the layout. -/
theorem volume_walk : volume (layout.walk.map Axis.extent) = layout.size := by
  rw [map_extent_walk hlayout.length_strides, Order.volume_arrange, size]

/-- With a uniform stride, the offsets found by division are the multiples of this stride. -/
theorem offsetAlong_walk_of_uniformStride {uniform i : Nat}
    (h : layout.uniformStride = some uniform) (hi : i < layout.size) :
    offsetAlong layout.walk i = i * uniform := by
  rw [hlayout.uniformStride_eq, findUniformStride] at h
  split at h
  · rename_i hfew
    obtain ⟨count, hcount, hle⟩ : ∃ count, Size.count? layout.extents = some count ∧ count ≤ 1 := by
      simpa [Option.any_eq_true] using hfew
    have hsize : layout.size = count := (eq_volume_of_count? hcount).2.symm
    obtain rfl : i = 0 := by omega
    simp
  · exact offsetAlong_of_uniformAlong h (hlayout.volume_walk ▸ hi)

/-- The offset of an element number is the offset of its coordinates. -/
theorem offsetOf_eq {i : Nat} (hi : i < layout.size) :
    layout.offsetOf i = layout.offsetAt (layout.order.coords layout.extents i) := by
  rw [← offsetAlong_walk hlayout.length_strides, offsetOf]
  split
  · rename_i uniform huniform
    rw [hlayout.offsetAlong_walk_of_uniformStride huniform hi]
  · rfl

/-- The offset of the number of given coordinates is the offset of the coordinates. -/
theorem offsetOf_index {coords : List Nat} (h : InBox layout.extents coords) :
    layout.offsetOf (layout.order.index layout.extents coords) = layout.offsetAt coords := by
  rw [hlayout.offsetOf_eq (Order.index_lt h), Order.coords_index h]

theorem offsetOf_lt {i : Nat} (hi : i < layout.size) : layout.offsetOf i < Size.largest := by
  rw [hlayout.offsetOf_eq hi]
  exact hlayout.offsetAt_lt (Order.inBox_coords hi)

/-- The offset that is found by division along the walk is that of the element number. -/
theorem offsetAlong_walk_eq {i : Nat} (hi : i < layout.size) :
    offsetAlong layout.walk i = layout.offsetOf i := by
  rw [hlayout.offsetOf_eq hi, offsetAlong_walk hlayout.length_strides]

/-- No offset along the walk is too large for the machine. -/
theorem offsetAlong_walk_lt :
    ∀ i < volume (layout.walk.map Axis.extent), offsetAlong layout.walk i < Size.limit := by
  intro i hi
  rw [hlayout.volume_walk] at hi
  have hlt := hlayout.offsetOf_lt hi
  have hlargest : Size.largest < Size.limit := by decide
  rw [hlayout.offsetAlong_walk_eq hi]
  omega

/-- The last offset is that of an element, if there is one. -/
theorem lastOffset_lt (hzero : 0 ∉ layout.extents) :
    lastOffset layout.extents layout.strides < Size.largest := by
  have hlast := hlayout.offsetAt_lt (inBox_pred hzero)
  rwa [offsetAt, sum_pred] at hlast

/-- A layout of an array with elements needs the cells up to the one of the largest coordinates. -/
theorem requiredCells_eq (hzero : 0 ∉ layout.extents) :
    layout.requiredCells = lastOffset layout.extents layout.strides + 1 := by
  have hspan := span?_eq_some_iff.mpr (.inr ⟨hzero, hlayout.lastOffset_lt hzero, rfl⟩)
  rw [requiredCells, hspan, Option.getD_some]

/-- The cells that the layout needs can be counted. -/
theorem isSome_span? : (span? layout.extents layout.strides).isSome := by
  by_cases hzero : 0 ∈ layout.extents
  · exact Option.isSome_of_eq_some (span?_eq_some_iff.mpr (.inl ⟨hzero, rfl⟩))
  · exact Option.isSome_of_eq_some
      (span?_eq_some_iff.mpr (.inr ⟨hzero, hlayout.lastOffset_lt hzero, rfl⟩))

/-- The offset of every element lies within the cells that the layout needs. -/
theorem offsetAt_lt_requiredCells {coords : List Nat} (h : InBox layout.extents coords) :
    layout.offsetAt coords < layout.requiredCells := by
  have hzero : 0 ∉ layout.extents := volume_pos_iff.mp (Nat.zero_lt_of_lt (number_lt h))
  have hle := sum_le_lastOffset h layout.strides
  rw [hlayout.requiredCells_eq hzero, offsetAt]
  omega

/-- No element lies behind the one with the largest coordinates. -/
theorem isGreatest_lastOffset (hpos : 0 < layout.size) :
    IsGreatest {offset | ∃ i < layout.size, layout.offsetOf i = offset}
      (lastOffset layout.extents layout.strides) := by
  have hbox := inBox_pred (volume_pos_iff.mp hpos)
  constructor
  · refine ⟨_, layout.order.index_lt hbox, ?_⟩
    rw [hlayout.offsetOf_index hbox, offsetAt, sum_pred]
  · rintro _ ⟨i, hi, rfl⟩
    rw [hlayout.offsetOf_eq hi]
    exact sum_le_lastOffset (Order.inBox_coords hi) layout.strides

end Addressable

/-- A layout without elements needs no cells. -/
theorem requiredCells_of_size_eq_zero {layout : Layout} (h : layout.size = 0) :
    layout.requiredCells = 0 := by
  have hzero : 0 ∈ layout.extents := by
    by_contra hmem
    exact Nat.ne_of_gt (volume_pos_iff.mpr hmem) h
  rw [requiredCells, span?_eq_some_iff.mpr (.inl ⟨hzero, rfl⟩), Option.getD_some]

/-- The layout needs no more cells than there are exactly if every element has a cell. -/
theorem Addressable.requiredCells_le_iff {layout : Layout} (hlayout : layout.Addressable)
    {held : Nat} :
    layout.requiredCells ≤ held ↔ ∀ i < layout.size, layout.offsetOf i < held := by
  rcases Nat.eq_zero_or_pos layout.size with hsize | hpos
  · simp [requiredCells_of_size_eq_zero hsize, hsize]
  · obtain ⟨⟨last, hlast, hoffset⟩, hgreatest⟩ := hlayout.isGreatest_lastOffset hpos
    rw [hlayout.requiredCells_eq (volume_pos_iff.mp hpos), Nat.succ_le_iff]
    constructor
    · intro hheld i hi
      exact (hgreatest ⟨i, hi, rfl⟩).trans_lt hheld
    · intro hcells
      exact hoffset ▸ hcells last hlast

/-- Without gaps, the `i`-th element lies at `i`. -/
theorem offsetOf_packed {extents : List Nat} {order : Order} {dtype : DType}
    (h : volume extents < Size.limit) {i : Nat} (hi : i < volume extents) :
    (packed extents order dtype).offsetOf i = i := by
  rw [(addressable_packed h order dtype).offsetOf_eq hi]
  exact (offsetAt_packed h (Order.inBox_coords hi)).trans (Order.index_coords hi)

/-- A layout without gaps needs one cell for each element. -/
theorem requiredCells_packed {extents : List Nat} (h : volume extents < Size.limit) (order : Order)
    (dtype : DType) : (packed extents order dtype).requiredCells = volume extents := by
  have haddressable := addressable_packed h order dtype
  refine Nat.le_antisymm (haddressable.requiredCells_le_iff.mpr fun i hi ↦ ?_) ?_
  · exact (offsetOf_packed h hi).trans_lt hi
  · rcases Nat.eq_zero_or_pos (volume extents) with hzero | hpos
    · omega
    · -- The last element has a cell.
      have hindex : volume extents - 1 < volume extents := by omega
      have hlast := haddressable.requiredCells_le_iff.mp le_rfl (volume extents - 1) hindex
      rw [offsetOf_packed h hindex] at hlast
      omega

/-- The last offset is the same whichever way the axes are listed. -/
theorem lastOffset_arrange (order : Order) {extents strides : List Nat}
    (h : extents.length = strides.length) :
    lastOffset (order.arrange extents) (order.arrange strides) = lastOffset extents strides := by
  rw [lastOffset, lastOffset, ← Order.arrange_zipWith order _ h, Order.sum_arrange]

/-- Strides without gaps lead past as many elements as there are, or past all sizes. -/
theorem min_volume_le_lastOffset {extents : List Nat} (hzero : 0 ∉ extents) (stride : Nat) :
    min (stride * volume extents) Size.limit ≤
      stride + lastOffset extents (packedStrides stride extents) := by
  induction extents generalizing stride with
  | nil => simp [lastOffset]
  | cons extent rest ih =>
      obtain ⟨hextent, hrest⟩ := not_or.mp (List.mem_cons.not.mp hzero)
      have hfirst : stride + (extent - 1) * stride = stride * extent := by
        obtain ⟨last, rfl⟩ : ∃ last, extent = last + 1 := ⟨extent - 1, by omega⟩
        rw [Nat.add_sub_cancel]
        ring
      rw [volume_cons, packedStrides, lastOffset_cons, ← Nat.add_assoc, hfirst, ← Nat.mul_assoc]
      by_cases hlimit : stride * extent < Size.limit
      · have hclamped : Size.mulClamped stride extent = stride * extent :=
          Nat.min_eq_left (Nat.le_pred_of_lt hlimit)
        rw [hclamped]
        exact ih hrest (stride * extent)
      · exact (Nat.min_le_right _ _).trans ((Nat.not_lt.mp hlimit).trans (Nat.le_add_right _ _))

/-- More elements than can be counted need more cells than there can be. -/
theorem requiredCells_packed_of_le {extents : List Nat} (h : Size.limit ≤ volume extents)
    (order : Order) (dtype : DType) :
    (packed extents order dtype).requiredCells = Size.largest := by
  have hlargest : Size.largest + 1 = Size.limit := by decide
  have hzero : 0 ∉ extents := volume_pos_iff.mp (by omega)
  have hzero' : 0 ∉ order.arrange extents := by
    cases order <;> simpa [Order.arrange] using hzero
  have hlast := min_volume_le_lastOffset hzero' 1
  rw [Order.volume_arrange, Nat.one_mul, Nat.min_eq_right h,
    ← lastOffset_arrange order (by simp), Order.arrange_arrange] at hlast
  have hspan : span? extents (packed extents order dtype).strides = none := by
    refine Option.eq_none_iff_forall_not_mem.mpr fun span hspan ↦ ?_
    rcases span?_eq_some_iff.mp hspan with ⟨hmem, _⟩ | ⟨_, hlt, _⟩
    · exact hzero hmem
    · have hstrides : (packed extents order dtype).strides =
          order.arrange (packedStrides 1 (order.arrange extents)) := rfl
      rw [hstrides] at hlt
      omega
  show (span? extents (packed extents order dtype).strides).getD Size.largest = Size.largest
  rw [hspan, Option.getD_none]

end Layout

/-! ## Indexers -/

namespace NarrowTable

theorem ofLayout_of_lt {layout : Layout} (h : layout.size < 2 ^ 32) :
    ofLayout layout = ⟨layout.extents.map UInt32.ofNat, true⟩ :=
  if_pos h

theorem ofLayout_of_not_lt {layout : Layout} (h : ¬layout.size < 2 ^ 32) :
    ofLayout layout = ⟨[], false⟩ :=
  if_neg h

end NarrowTable

namespace Indexer

open Layout

/-- Dividing 32-bit numbers leaves the same remainder. -/
theorem toNat_ofNat_mod {i extent : Nat} (hi : i < 2 ^ 32) (hextent : extent < 2 ^ 32) :
    (UInt32.ofNat i % UInt32.ofNat extent).toNat = i % extent := by
  have hlt : i % extent < 2 ^ 32 := Nat.lt_of_le_of_lt (Nat.mod_le i extent) hi
  rw [← UInt32.ofNat_mod hi hextent, UInt32.toNat_ofNat_of_lt' hlt]

/-- Dividing 32-bit numbers finds the same offset, as long as all numbers are 32-bit numbers. -/
theorem offsetAlongNarrow_eq {axes : List Axis} {i : Nat}
    (haxes : ∀ axis ∈ axes, axis.extent < 2 ^ 32) (hi : i < 2 ^ 32) :
    offsetAlongNarrow (axes.map fun axis ↦ (UInt32.ofNat axis.extent, axis.stride))
        (UInt32.ofNat i) = offsetAlong axes i := by
  induction axes generalizing i with
  | nil => rfl
  | cons axis rest ih =>
      have hextent : axis.extent < 2 ^ 32 := haxes axis (by simp)
      have hquotient : UInt32.ofNat i / UInt32.ofNat axis.extent = UInt32.ofNat (i / axis.extent) :=
        (UInt32.ofNat_div hi hextent).symm
      have hrest := ih (fun axis h ↦ haxes axis (by simp [h]))
        (Nat.lt_of_le_of_lt (Nat.div_le_self i axis.extent) hi)
      rw [List.map_cons, offsetAlongNarrow, hquotient, toNat_ofNat_mod hi hextent, hrest,
        offsetAlong]

/-- The 32-bit axes of an indexer are those of the layout. -/
theorem narrowWalk_ofLayout {layout : Layout} (hsize : layout.size < 2 ^ 32) :
    (ofLayout layout).narrowWalk =
      layout.walk.map fun axis ↦ (UInt32.ofNat axis.extent, axis.stride) := by
  rw [narrowWalk, Layout.walk, ← Order.arrange_map]
  simp only [ofLayout, NarrowTable.ofLayout_of_lt hsize]
  congr 1
  apply List.ext_getElem <;> simp

end Indexer

/-- In an array with elements, no axis has more coordinates than there are elements. -/
theorem Layout.Addressable.extent_le_size {layout : Layout} (hlayout : layout.Addressable)
    (hpos : 0 < layout.size) {axis : Axis} (h : axis ∈ layout.walk) :
    axis.extent ≤ layout.size := by
  have hvolume : volume (layout.order.arrange layout.extents) = layout.size :=
    Order.volume_arrange _ _
  have hmem : axis.extent ∈ layout.order.arrange layout.extents := by
    rw [← map_extent_walk hlayout.length_strides]
    exact List.mem_map_of_mem h
  rw [← hvolume] at hpos ⊢
  exact le_volume hpos hmem

/-- The table of an indexer is narrow only if all extents and all element numbers are 32-bit
numbers, provided that there is an element at all. -/
theorem Layout.Addressable.narrow_cases {layout : Layout} (hlayout : layout.Addressable)
    (hpos : 0 < layout.size) :
    ((Indexer.ofLayout layout).table.narrow = true ∧ layout.size < 2 ^ 32 ∧
        (∀ axis ∈ layout.walk, axis.extent < 2 ^ 32) ∧
        (Indexer.ofLayout layout).narrowWalk =
          layout.walk.map fun axis ↦ (UInt32.ofNat axis.extent, axis.stride)) ∨
      (Indexer.ofLayout layout).table.narrow = false := by
  by_cases hsize : layout.size < 2 ^ 32
  · have htable : (Indexer.ofLayout layout).table.narrow = true := by
      rw [Indexer.ofLayout, NarrowTable.ofLayout_of_lt hsize]
    exact .inl ⟨htable, hsize, fun axis haxis ↦ (hlayout.extent_le_size hpos haxis).trans_lt hsize,
      Indexer.narrowWalk_ofLayout hsize⟩
  · exact .inr (by rw [Indexer.ofLayout, NarrowTable.ofLayout_of_not_lt hsize])

/-- An indexer finds the offsets of its layout. -/
theorem Layout.Addressable.offsetOf_ofLayout {layout : Layout} (hlayout : layout.Addressable)
    {i : Nat} (hi : i < layout.size) :
    (Indexer.ofLayout layout).offsetOf i = layout.offsetOf i := by
  have hlayout_eq : (Indexer.ofLayout layout).layout = layout := rfl
  rw [Indexer.offsetOf, offsetOf, hlayout_eq]
  cases layout.uniformStride with
  | some stride => rfl
  | none =>
      rcases hlayout.narrow_cases (Nat.zero_lt_of_lt hi) with
        ⟨htable, hsize, haxes, hwalk⟩ | htable
      · simp only [htable, if_true]
        rw [hwalk, Indexer.offsetAlongNarrow_eq haxes (Nat.lt_trans hi hsize)]
      · simp only [htable, Bool.false_eq_true, if_false]
        rfl

end ArrayEngine
