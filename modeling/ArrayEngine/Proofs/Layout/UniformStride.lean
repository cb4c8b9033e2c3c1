import ArrayEngine.Proofs.Layout.Addressable

/-!
# Which layouts have a uniform stride

The uniform stride of a layout is computed from its axes. `SpacedBy` says what it means for the
elements along axes, and `SpacedBy.of_cons` takes the fastest axis off. `uniformStride_exact` says
that an accepted layout with more than one element has a uniform stride exactly when its elements
lie at the multiples of a positive number, which is then this stride; in particular, a layout is
packed exactly when every element lies at its own number.
-/

namespace ArrayEngine.Layout

/-! ## Evenly spaced axes -/

/-- On these axes, given from the fastest to the slowest, the `i`-th element lies at `i` times this
step. -/
def SpacedBy (axes : List Axis) (step : Nat) : Prop :=
  ∀ i < volume (axes.map Axis.extent), offsetAlong axes i = i * step

/-- If elements are evenly spaced, the fastest axis with a second coordinate has their step as its
stride, and the axes behind it step over the whole axis. -/
theorem SpacedBy.of_cons {axis : Axis} {rest : List Axis} {step : Nat}
    (hspaced : SpacedBy (axis :: rest) step)
    (hpos : 0 < volume ((axis :: rest).map Axis.extent)) :
    (axis.extent ≠ 1 → axis.stride = step) ∧ SpacedBy rest (step * axis.extent) := by
  rw [List.map_cons, volume_cons] at hpos
  have hextent : 0 < axis.extent := Nat.pos_of_mul_pos_right hpos
  have hrest : 0 < volume (rest.map Axis.extent) := Nat.pos_of_mul_pos_left hpos
  constructor
  · intro hunit
    have hwide : 1 < axis.extent := by omega
    have hlt : 1 < volume ((axis :: rest).map Axis.extent) :=
      hwide.trans_le (Nat.le_mul_of_pos_right _ hrest)
    have hsecond := hspaced 1 hlt
    rw [offsetAlong_one hwide] at hsecond
    omega
  · intro i hi
    have hlt : axis.extent * i < volume ((axis :: rest).map Axis.extent) :=
      Nat.mul_lt_mul_of_pos_left hi hextent
    have hoffset := hspaced (axis.extent * i) hlt
    rw [offsetAlong_mul hextent] at hoffset
    rw [hoffset]
    ring

/-! ## The computed stride -/

/-- Behind axes with `span` elements, even spacing is recognised, provided that the offsets and the
number of elements are sizes. -/
theorem SpacedBy.uniformAlong_some {axes : List Axis} {stride span : Nat}
    (hspaced : SpacedBy axes (stride * span)) (hpos : 0 < volume (axes.map Axis.extent))
    (hsize : span * volume (axes.map Axis.extent) < Size.limit)
    (hoffsets : ∀ i < volume (axes.map Axis.extent), i * (stride * span) < Size.limit) :
    uniformAlong (some stride) span axes = some stride := by
  induction axes generalizing span with
  | nil => rfl
  | cons axis rest ih =>
      obtain ⟨hstride, hrest⟩ := hspaced.of_cons hpos
      rw [List.map_cons, volume_cons] at hpos hsize hoffsets
      have hextent : 0 < axis.extent := Nat.pos_of_mul_pos_right hpos
      have hbehind : 0 < volume (rest.map Axis.extent) := Nat.pos_of_mul_pos_left hpos
      rw [← Nat.mul_assoc] at hsize
      by_cases hunit : axis.extent = 1
      · rw [uniformAlong_unit hunit]
        simp only [hunit, Nat.mul_one, Nat.one_mul] at hrest hsize hoffsets
        exact ih hrest hbehind hsize hoffsets
      · have hsecond : 1 < axis.extent * volume (rest.map Axis.extent) :=
          (show 1 < axis.extent by omega).trans_le (Nat.le_mul_of_pos_right _ hbehind)
        have hstep := hoffsets 1 hsecond
        have hwider : span * axis.extent < Size.limit :=
          (Nat.le_mul_of_pos_right _ hbehind).trans_lt hsize
        rw [Nat.mul_assoc] at hrest
        refine (uniformAlong_some_eq_some_iff hunit).mpr ⟨by omega, hstride hunit, hwider, ?_⟩
        refine ih hrest hbehind hsize ?_
        intro i hi
        have hoffset := hoffsets (axis.extent * i) (Nat.mul_lt_mul_of_pos_left hi hextent)
        have hvalue : i * (stride * (span * axis.extent)) =
            axis.extent * i * (stride * span) := by ring
        rwa [hvalue]

/-- A uniform stride is never zero. -/
theorem ne_zero_of_uniformAlong {axes : List Axis} {stride : Nat}
    (h : uniformAlong none 1 axes = some stride) : stride ≠ 0 := by
  induction axes with
  | nil =>
      obtain rfl : 1 = stride := by simpa [uniformAlong] using h
      exact Nat.one_ne_zero
  | cons axis rest ih =>
      by_cases hunit : axis.extent = 1
      · rw [uniformAlong_unit hunit] at h
        exact ih h
      · obtain ⟨hfirst, _, hrest⟩ := (uniformAlong_none_eq_some_iff hunit).mp h
        obtain ⟨rfl, _⟩ := offsetAlong_of_uniformAlong_some hrest
        exact hfirst

/-- Even spacing of more than one element is recognised, provided that the offsets and the number of
elements are sizes. -/
theorem SpacedBy.uniformAlong_none {axes : List Axis} {stride : Nat}
    (hspaced : SpacedBy axes stride) (hstride : stride ≠ 0)
    (hmany : 1 < volume (axes.map Axis.extent))
    (hsize : volume (axes.map Axis.extent) < Size.limit)
    (hoffsets : ∀ i < volume (axes.map Axis.extent), i * stride < Size.limit) :
    uniformAlong none 1 axes = some stride := by
  induction axes with
  | nil => exact absurd hmany (Nat.lt_irrefl 1)
  | cons axis rest ih =>
      have hpos : 0 < volume ((axis :: rest).map Axis.extent) := by omega
      obtain ⟨hfirst, hrest⟩ := hspaced.of_cons hpos
      rw [List.map_cons, volume_cons] at hpos hmany hsize hoffsets
      have hextent : 0 < axis.extent := Nat.pos_of_mul_pos_right hpos
      have hbehind : 0 < volume (rest.map Axis.extent) := Nat.pos_of_mul_pos_left hpos
      by_cases hunit : axis.extent = 1
      · rw [uniformAlong_unit hunit]
        simp only [hunit, Nat.mul_one, Nat.one_mul] at hrest hmany hsize hoffsets
        exact ih hrest hmany hsize hoffsets
      · -- The first axis with a second coordinate gives the stride, and the others are measured
        -- by it.
        obtain rfl := hfirst hunit
        have hwider : 1 * axis.extent < Size.limit := by
          have hle := Nat.le_mul_of_pos_right axis.extent hbehind
          omega
        refine (uniformAlong_none_eq_some_iff hunit).mpr ⟨hstride, hwider, ?_⟩
        rw [Nat.one_mul]
        refine hrest.uniformAlong_some hbehind hsize ?_
        intro i hi
        have hoffset := hoffsets (axis.extent * i) (Nat.mul_lt_mul_of_pos_left hi hextent)
        have hvalue : i * (axis.stride * axis.extent) = axis.extent * i * axis.stride := by ring
        rwa [hvalue]

/-! ## Layouts -/

/-- The elements of the layout lie at the multiples of a positive stride, by their coordinates. -/
def EvenlySpaced (layout : Layout) (stride : Nat) : Prop :=
  1 ≤ stride ∧
    ∀ i < layout.size, layout.offsetAt ((Indexer.ofLayout layout).coordsOf i) = i * stride

namespace Addressable

variable {layout : Layout} (hlayout : layout.Addressable)

include hlayout

/-- Even spacing of the elements is even spacing along the walk. -/
theorem spacedBy_walk {stride : Nat} :
    SpacedBy layout.walk stride ↔
      ∀ i < layout.size,
        layout.offsetAt ((Indexer.ofLayout layout).coordsOf i) = i * stride := by
  rw [SpacedBy, hlayout.volume_walk]
  simp only [coordsOf_ofLayout hlayout.length_strides, offsetAlong_walk hlayout.length_strides]

/-- With more than one element, the uniform stride is the one along the walk. -/
theorem uniformStride_eq_uniformAlong (hmany : 1 < layout.size) :
    layout.uniformStride = uniformAlong none 1 layout.walk := by
  rw [hlayout.uniformStride_eq, findUniformStride, walk]
  refine if_neg ?_
  intro hfew
  obtain ⟨count, hcount, hle⟩ : ∃ count, Size.count? layout.extents = some count ∧ count ≤ 1 := by
    simpa [Option.any_eq_true] using hfew
  have hsize : layout.size = count := (eq_volume_of_count? hcount).2.symm
  omega

/-- More than one element has a uniform stride exactly when the elements are evenly spaced. -/
theorem uniformStride_eq_some_iff (hmany : 1 < layout.size) {stride : Nat} :
    layout.uniformStride = some stride ↔ layout.EvenlySpaced stride := by
  have hvolume := hlayout.volume_walk
  rw [hlayout.uniformStride_eq_uniformAlong hmany, EvenlySpaced, ← hlayout.spacedBy_walk]
  constructor
  · intro h
    have hstride := ne_zero_of_uniformAlong h
    exact ⟨by omega, fun i hi ↦ offsetAlong_of_uniformAlong h hi⟩
  · rintro ⟨hstride, hspaced⟩
    refine hspaced.uniformAlong_none (by omega) (by omega) (hvolume ▸ hlayout.size_lt) ?_
    intro i hi
    rw [← hspaced i hi]
    exact hlayout.offsetAlong_walk_lt i hi

/-- At most one element has the uniform stride one. -/
theorem uniformStride_of_size_le (hcount : (Size.count? layout.extents).isSome)
    (hfew : layout.size ≤ 1) : layout.uniformStride = some 1 := by
  obtain ⟨count, hcount⟩ := Option.isSome_iff_exists.mp hcount
  have hsize : count = layout.size := (eq_volume_of_count? hcount).2
  rw [hlayout.uniformStride_eq, findUniformStride, hcount]
  refine if_pos ?_
  rw [Option.any_some, decide_eq_true_eq]
  omega

/-- A layout is packed exactly when every element lies at its own number. -/
theorem isPacked_iff (hcount : (Size.count? layout.extents).isSome) :
    layout.isPacked ↔
      ∀ i < layout.size, layout.offsetAt ((Indexer.ofLayout layout).coordsOf i) = i := by
  rw [isPacked, beq_iff_eq]
  by_cases hmany : 1 < layout.size
  · rw [hlayout.uniformStride_eq_some_iff hmany, EvenlySpaced]
    simp only [Nat.mul_one, Nat.le_refl, true_and]
  · refine iff_of_true (hlayout.uniformStride_of_size_le hcount (by omega)) ?_
    intro i hi
    obtain rfl : i = 0 := by omega
    rw [coordsOf_ofLayout hlayout.length_strides, ← offsetAlong_walk hlayout.length_strides,
      offsetAlong_zero]

end Addressable

/-- In an accepted layout with more than one element, the uniform stride is the positive number at
whose multiples the elements lie, and there is none exactly when there is no such number. With at
most one element it is one. So a layout is packed exactly when every element lies at its own number.
The layout without gaps of any extents that can be counted is packed, and needs one cell for each
element. -/
theorem uniformStride_exact :
    (∀ {extents strides : List Nat} {order : Order} {dtype : DType} {layout : Layout},
      strided extents strides order dtype = .ok layout →
        (1 < layout.size →
          (∀ stride, layout.uniformStride = some stride ↔ layout.EvenlySpaced stride) ∧
          (layout.uniformStride = none ↔ ¬∃ stride, layout.EvenlySpaced stride)) ∧
        (layout.size ≤ 1 → layout.uniformStride = some 1) ∧
        (layout.isPacked ↔
          ∀ i < layout.size, layout.offsetAt ((Indexer.ofLayout layout).coordsOf i) = i)) ∧
    ∀ {extents : List Nat} (order : Order) (dtype : DType), (Size.count? extents).isSome →
      (packed extents order dtype).uniformStride = some 1 ∧
        (packed extents order dtype).requiredCells = (packed extents order dtype).size := by
  constructor
  · intro extents strides order dtype layout hlayout
    have haddressable := addressable_of_strided hlayout
    obtain ⟨_, _, _, hcount, rfl⟩ := strided_eq_ok_iff.mp hlayout
    refine ⟨?_, haddressable.uniformStride_of_size_le hcount, haddressable.isPacked_iff hcount⟩
    intro hmany
    refine ⟨fun stride ↦ haddressable.uniformStride_eq_some_iff hmany, ?_⟩
    simp only [← haddressable.uniformStride_eq_some_iff hmany, Option.eq_none_iff_forall_ne_some,
      not_exists]
  · intro extents order dtype hcount
    obtain ⟨count, hvolume⟩ := Option.isSome_iff_exists.mp hcount
    obtain ⟨hlimit, rfl⟩ := eq_volume_of_count? hvolume
    have hpacked := isPacked_packed hcount order dtype
    rw [isPacked, beq_iff_eq] at hpacked
    exact ⟨hpacked, requiredCells_packed hlimit order dtype⟩

/-- Three pairs of every other cell. -/
def spacedPairs : Layout :=
  make [3, 1, 2] [4, 9, 2] .rowMajor .f32

/-- A row-major array of pairs whose elements lie at the even offsets, with an axis of a single
coordinate between the others, and an array without elements whose other extents are large. -/
theorem uniformStride_exact_pairs :
    strided [3, 1, 2] [4, 9, 2] .rowMajor .f32 = .ok spacedPairs ∧
      1 < spacedPairs.size ∧
      spacedPairs.EvenlySpaced 2 ∧
      (Size.count? [0, 2 ^ 63, 2]).isSome ∧
      (packed [0, 2 ^ 63, 2] .columnMajor .i8).requiredCells = 0 := by
  have hlayout : strided [3, 1, 2] [4, 9, 2] .rowMajor .f32 = .ok spacedPairs := rfl
  have hmany : 1 < spacedPairs.size := by decide
  have hcount : (Size.count? [0, 2 ^ 63, 2]).isSome := rfl
  exact ⟨hlayout, hmany, (((uniformStride_exact.1 hlayout).1 hmany).1 2).mp rfl, hcount,
    (uniformStride_exact.2 .columnMajor .i8 hcount).2⟩

end ArrayEngine.Layout
