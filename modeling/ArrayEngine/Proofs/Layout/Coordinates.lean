import ArrayEngine.Layout.Index
import Mathlib.Algebra.Ring.Nat
import Mathlib.Data.List.Forall2
import Mathlib.Data.List.Nodup
import Mathlib.Data.Set.Function

/-!
# Coordinates and element numbers

An array numbers its elements in one of two orders. Read from the fastest axis to the slowest, the
coordinates of an element are the digits of its number in the mixed radix of the extents:
`digits` and `number` are inverse to each other between the numbers below the volume and the
coordinates within the extents. `Order.bijOn_index` carries this over to coordinates given axis by
axis, and `offsetAlong_coords` says that the offset found by division is the offset of the
coordinates.
-/

namespace ArrayEngine

namespace Layout

/-- The coordinates are those of an element of an array with these extents: there is one for each
axis, and it is below the extent of the axis. -/
def InBox (extents coords : List Nat) : Prop :=
  List.Forall₂ (· < ·) coords extents

/-- The number that has these digits in the mixed radix of the extents, the fastest first. -/
def number : List Nat → List Nat → Nat
  | extent :: extents, digit :: digits => digit + extent * number extents digits
  | _, _ => 0

/-- The offset of the element at given coordinates: the sum of the coordinates, each times the
stride of its axis. -/
def offsetAt (layout : Layout) (coords : List Nat) : Nat :=
  (List.zipWith (· * ·) coords layout.strides).sum

@[simp] theorem volume_nil : volume [] = 1 := rfl

@[simp] theorem volume_cons (extent : Nat) (extents : List Nat) :
    volume (extent :: extents) = extent * volume extents := rfl

theorem volume_eq_prod (extents : List Nat) : volume extents = extents.prod := by
  induction extents with
  | nil => rfl
  | cons extent rest ih => simp [ih]

theorem volume_append (xs ys : List Nat) : volume (xs ++ ys) = volume xs * volume ys := by
  rw [volume_eq_prod, volume_eq_prod, volume_eq_prod, List.prod_append]

/-- There is an element exactly when no extent is zero. -/
theorem volume_pos_iff {extents : List Nat} : 0 < volume extents ↔ 0 ∉ extents := by
  induction extents with
  | nil => simp
  | cons extent rest ih =>
      rw [volume_cons, List.mem_cons, not_or, ← ih, Nat.pos_iff_ne_zero, Nat.mul_ne_zero_iff]
      omega

/-- In an array with elements, no extent is larger than the number of elements. -/
theorem le_volume {extents : List Nat} (hpos : 0 < volume extents) {extent : Nat}
    (h : extent ∈ extents) : extent ≤ volume extents := by
  induction extents with
  | nil => simp at h
  | cons first rest ih =>
      rw [volume_cons] at hpos ⊢
      obtain ⟨hfirst, hrest⟩ : 0 < first ∧ 0 < volume rest := by
        simpa [Nat.pos_iff_ne_zero, Nat.mul_ne_zero_iff] using hpos
      rcases List.mem_cons.mp h with rfl | hmem
      · exact Nat.le_mul_of_pos_right extent hrest
      · exact Nat.le_trans (ih hrest hmem) (Nat.le_mul_of_pos_left _ hfirst)

@[simp] theorem inBox_nil {coords : List Nat} : InBox [] coords ↔ coords = [] :=
  List.forall₂_nil_right_iff

@[simp] theorem inBox_cons {extent coord : Nat} {extents coords : List Nat} :
    InBox (extent :: extents) (coord :: coords) ↔ coord < extent ∧ InBox extents coords :=
  List.forall₂_cons

theorem InBox.length_eq {extents coords : List Nat} (h : InBox extents coords) :
    coords.length = extents.length :=
  List.Forall₂.length_eq h

/-- The digits of a number below the volume are coordinates within the extents. -/
theorem inBox_digits {extents : List Nat} {i : Nat} (h : i < volume extents) :
    InBox extents (digits extents i) := by
  induction extents generalizing i with
  | nil => simp [digits]
  | cons extent rest ih =>
      have hpos : 0 < extent := Nat.pos_of_ne_zero fun hzero ↦ by simp [hzero] at h
      exact inBox_cons.mpr ⟨Nat.mod_lt _ hpos, ih (Nat.div_lt_of_lt_mul h)⟩

theorem number_lt {extents coords : List Nat} (h : InBox extents coords) :
    number extents coords < volume extents := by
  induction h with
  | nil => simp [number]
  | @cons coord extent coords extents hcoord _ ih =>
      calc coord + extent * number extents coords
          < extent + extent * number extents coords := by omega
        _ = extent * (number extents coords + 1) := by rw [Nat.mul_add, Nat.mul_one, Nat.add_comm]
        _ ≤ extent * volume extents := Nat.mul_le_mul_left extent ih

theorem number_digits {extents : List Nat} {i : Nat} (h : i < volume extents) :
    number extents (digits extents i) = i := by
  induction extents generalizing i with
  | nil =>
      have hi : i = 0 := by simpa using h
      simp [number, hi]
  | cons extent rest ih =>
      rw [digits, number, ih (Nat.div_lt_of_lt_mul h)]
      exact Nat.mod_add_div i extent

/-- A number has a fastest digit and a number of the others. -/
theorem exists_eq_add_mul {extent : Nat} (hpos : 0 < extent) (i : Nat) :
    ∃ digit quotient, digit < extent ∧ i = digit + extent * quotient :=
  ⟨i % extent, i / extent, Nat.mod_lt i hpos, (Nat.mod_add_div i extent).symm⟩

/-- The digits of a number that is given by its fastest digit and the number of the others. -/
theorem digits_add_mul {extent digit : Nat} (h : digit < extent) (extents : List Nat) (i : Nat) :
    digits (extent :: extents) (digit + extent * i) = digit :: digits extents i := by
  have hpos : 0 < extent := by omega
  rw [digits, Nat.add_mul_mod_self_left, Nat.mod_eq_of_lt h, Nat.add_mul_div_left _ _ hpos,
    Nat.div_eq_of_lt h, Nat.zero_add]

/-- The fastest digit of a multiple of the fastest extent is zero. -/
theorem digits_mul {extent : Nat} (h : 0 < extent) (extents : List Nat) (i : Nat) :
    digits (extent :: extents) (extent * i) = 0 :: digits extents i := by
  have hdigits := digits_add_mul h extents i
  rwa [Nat.zero_add] at hdigits

theorem digits_number {extents coords : List Nat} (h : InBox extents coords) :
    digits extents (number extents coords) = coords := by
  induction h with
  | nil => rfl
  | cons hcoord _ ih => rw [number, digits_add_mul hcoord, ih]

/-- The offset of the `i`-th element is the sum of its coordinates, each times the stride of its
axis. -/
theorem offsetAlong_eq_sum (axes : List Axis) (i : Nat) :
    offsetAlong axes i =
      (List.zipWith (· * ·) (digits (axes.map Axis.extent) i) (axes.map Axis.stride)).sum := by
  induction axes generalizing i with
  | nil => rfl
  | cons axis rest ih => simp [offsetAlong, digits, ih]

/-- The offset of an element that is given by its fastest digit and the number of the others. -/
theorem offsetAlong_add_mul {axis : Axis} {digit : Nat} (h : digit < axis.extent)
    (axes : List Axis) (i : Nat) :
    offsetAlong (axis :: axes) (digit + axis.extent * i) =
      digit * axis.stride + offsetAlong axes i := by
  have hpos : 0 < axis.extent := by omega
  rw [offsetAlong, Nat.add_mul_mod_self_left, Nat.mod_eq_of_lt h, Nat.add_mul_div_left _ _ hpos,
    Nat.div_eq_of_lt h, Nat.zero_add]

/-- The first element lies at offset zero. -/
@[simp] theorem offsetAlong_zero (axes : List Axis) : offsetAlong axes 0 = 0 := by
  induction axes with
  | nil => rfl
  | cons axis rest ih => simp [offsetAlong, ih]

/-- The neighbour along the fastest axis is one stride away. -/
theorem offsetAlong_one {axis : Axis} (h : 1 < axis.extent) (rest : List Axis) :
    offsetAlong (axis :: rest) 1 = axis.stride := by
  have hvalue := offsetAlong_add_mul h rest 0
  rw [Nat.mul_zero, Nat.add_zero, offsetAlong_zero] at hvalue
  omega

/-- Without the fastest axis, the elements are those at its first coordinate. -/
theorem offsetAlong_mul {axis : Axis} (h : 0 < axis.extent) (rest : List Axis) (i : Nat) :
    offsetAlong (axis :: rest) (axis.extent * i) = offsetAlong rest i := by
  have hvalue := offsetAlong_add_mul h rest i
  rwa [Nat.zero_add, Nat.zero_mul, Nat.zero_add] at hvalue

end Layout

/-! ## Both orders -/

namespace Order

/-- The number of the element at given coordinates. -/
def index (order : Order) (extents coords : List Nat) : Nat :=
  Layout.number (order.arrange extents) (order.arrange coords)

/-- The coordinates of the `i`-th element. -/
def coords (order : Order) (extents : List Nat) (i : Nat) : List Nat :=
  order.arrange (Layout.digits (order.arrange extents) i)

/-- The coordinates of all elements, in the order of the elements. -/
def coordinates (order : Order) (extents : List Nat) : List (List Nat) :=
  (List.range (Layout.volume extents)).map (order.coords extents)

theorem arrange_eq_iff {α : Type} {order : Order} {xs ys : List α} :
    order.arrange xs = ys ↔ xs = order.arrange ys := by
  constructor <;> rintro rfl <;> simp

theorem arrange_map {α β : Type} (order : Order) (f : α → β) (entries : List α) :
    order.arrange (entries.map f) = (order.arrange entries).map f := by
  cases order <;> simp [arrange]

theorem arrange_zipWith {α β γ : Type} (order : Order) (f : α → β → γ) {xs : List α}
    {ys : List β} (h : xs.length = ys.length) :
    order.arrange (List.zipWith f xs ys) =
      List.zipWith f (order.arrange xs) (order.arrange ys) := by
  cases order with
  | rowMajor => exact List.reverse_zipWith h
  | columnMajor => rfl

theorem arrange_perm {α : Type} (order : Order) (entries : List α) :
    (order.arrange entries).Perm entries := by
  cases order with
  | rowMajor => exact List.reverse_perm entries
  | columnMajor => exact List.Perm.refl entries

@[simp] theorem sum_arrange (order : Order) (entries : List Nat) :
    (order.arrange entries).sum = entries.sum := by
  cases order <;> simp [arrange]

@[simp] theorem volume_arrange (order : Order) (extents : List Nat) :
    Layout.volume (order.arrange extents) = Layout.volume extents := by
  cases order <;> simp [arrange, Layout.volume_eq_prod]

@[simp] theorem inBox_arrange (order : Order) {extents coords : List Nat} :
    Layout.InBox (order.arrange extents) (order.arrange coords) ↔
      Layout.InBox extents coords := by
  cases order with
  | rowMajor => exact List.forall₂_reverse_iff
  | columnMajor => rfl

variable {order : Order} {extents coords : List Nat} {i : Nat}

theorem index_lt (h : Layout.InBox extents coords) :
    order.index extents coords < Layout.volume extents := by
  simpa [index] using Layout.number_lt ((inBox_arrange order).mpr h)

theorem inBox_coords (h : i < Layout.volume extents) :
    Layout.InBox extents (order.coords extents i) := by
  rw [← inBox_arrange order, Order.coords, arrange_arrange]
  exact Layout.inBox_digits (by simpa using h)

theorem index_coords (h : i < Layout.volume extents) :
    order.index extents (order.coords extents i) = i := by
  rw [index, Order.coords, arrange_arrange]
  exact Layout.number_digits (by simpa using h)

theorem coords_index (h : Layout.InBox extents coords) :
    order.coords extents (order.index extents coords) = coords := by
  rw [Order.coords, index, Layout.digits_number ((inBox_arrange order).mpr h), arrange_arrange]

/-- Coordinates within the extents have a number of their own, and every number below the volume is
one of them. -/
theorem bijOn_index (order : Order) (extents : List Nat) :
    Set.BijOn (order.index extents) {coords | Layout.InBox extents coords}
      {i | i < Layout.volume extents} := by
  refine ⟨fun coords h ↦ index_lt h, fun left hleft right hright heq ↦ ?_, fun i h ↦ ?_⟩
  · rw [← coords_index hleft, heq, coords_index hright]
  · exact ⟨order.coords extents i, inBox_coords h, index_coords h⟩

/-- What goes along with the coordinates of all elements goes along with given ones at their
number. -/
theorem exists_of_forall₂_coordinates {α : Type} {R : List Nat → α → Prop} {values : List α}
    (h : List.Forall₂ R (order.coordinates extents) values) (hbox : Layout.InBox extents coords) :
    ∃ value, values[order.index extents coords]? = some value ∧ R coords value := by
  obtain ⟨hlength, hget⟩ := List.forall₂_iff_get.mp h
  have hindex : order.index extents coords < (order.coordinates extents).length := by
    simpa [coordinates] using index_lt hbox
  have hvalue := hget _ hindex (hlength ▸ hindex)
  have hcoords : (order.coordinates extents).get ⟨order.index extents coords, hindex⟩ = coords := by
    simp [coordinates, coords_index hbox]
  rw [hcoords] at hvalue
  exact ⟨_, List.getElem?_eq_getElem (hlength ▸ hindex), hvalue⟩

end Order

namespace Layout

variable {layout : Layout}

/-- The coordinates of all elements of a layout, in its order. -/
def coordinates (layout : Layout) : List (List Nat) :=
  layout.order.coordinates layout.extents

/-- The extents of the axes from the fastest to the slowest. -/
theorem map_extent_walk (h : layout.strides.length = layout.extents.length) :
    layout.walk.map Axis.extent = layout.order.arrange layout.extents := by
  rw [walk, ← Order.arrange_map]
  congr 1
  apply List.ext_getElem <;> simp [h]

/-- The strides of the axes from the fastest to the slowest. -/
theorem map_stride_walk (h : layout.strides.length = layout.extents.length) :
    layout.walk.map Axis.stride = layout.order.arrange layout.strides := by
  rw [walk, ← Order.arrange_map]
  congr 1
  apply List.ext_getElem <;> simp [h]

/-- The offset that is found by division is the offset of the coordinates. -/
theorem offsetAlong_walk (h : layout.strides.length = layout.extents.length) (i : Nat) :
    offsetAlong layout.walk i = layout.offsetAt (layout.order.coords layout.extents i) := by
  have hlength : (layout.order.coords layout.extents i).length = layout.strides.length := by
    simp [Order.coords, h]
  rw [offsetAlong_eq_sum, map_extent_walk h, map_stride_walk h, offsetAt,
    ← Order.sum_arrange layout.order (List.zipWith _ (layout.order.coords layout.extents i) _),
    Order.arrange_zipWith _ _ hlength, Order.coords, Order.arrange_arrange]

/-- An indexer finds the coordinates of the order of its layout. -/
theorem coordsOf_ofLayout (h : layout.strides.length = layout.extents.length) (i : Nat) :
    (Indexer.ofLayout layout).coordsOf i = layout.order.coords layout.extents i := by
  simp only [Indexer.coordsOf, Indexer.digits, Indexer.ofLayout, map_extent_walk h, Order.coords]

@[simp] theorem length_coordinates (layout : Layout) :
    layout.coordinates.length = layout.size := by
  simp [coordinates, Order.coordinates, size]

/-- The listed coordinates are those within the extents. -/
theorem mem_coordinates {coords : List Nat} :
    coords ∈ layout.coordinates ↔ InBox layout.extents coords := by
  simp only [coordinates, Order.coordinates, List.mem_map, List.mem_range]
  constructor
  · rintro ⟨i, hi, rfl⟩
    exact Order.inBox_coords hi
  · intro h
    exact ⟨layout.order.index layout.extents coords, Order.index_lt h, Order.coords_index h⟩

theorem nodup_coordinates (layout : Layout) : layout.coordinates.Nodup := by
  -- An element number can be read back from its coordinates.
  refine List.Nodup.map_on (fun i hi j hj heq ↦ ?_) List.nodup_range
  rw [← Order.index_coords (List.mem_range.mp hi), heq, Order.index_coords (List.mem_range.mp hj)]

end Layout

end ArrayEngine
