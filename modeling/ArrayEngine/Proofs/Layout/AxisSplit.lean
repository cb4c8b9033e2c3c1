import ArrayEngine.Layout.AxisSplit
import ArrayEngine.Proofs.Layout.Cursor
import Mathlib.Data.List.ProdSigma

/-!
# Slices and coordinates

A mask of axes separates the entries of the marked axes from those of the others, and `weave` puts
them together again. The coordinates of an element thus fall into those along the chosen axes, which
tell its place in its slice, and those across them, which tell its slice. `splitAlong_partition`
says that this is a one-to-one correspondence, and that base and slice lead to the offset of the
element.
-/

namespace ArrayEngine

namespace Layout

/-! ## Selecting the entries of some axes -/

@[simp] theorem select_cons (marked : Bool) (mask : List Bool) (chosen : Bool) (entry : Nat)
    (entries : List Nat) :
    select (marked :: mask) chosen (entry :: entries) =
      if marked = chosen then entry :: select mask chosen entries
      else select mask chosen entries := by
  by_cases h : marked = chosen <;> simp [select, h]

@[simp] theorem select_nil (chosen : Bool) (entries : List Nat) : select [] chosen entries = [] :=
  rfl

/-- The entries of all axes from those of the marked axes and those of the others. -/
def weave : List Bool → List Nat → List Nat → List Nat
  | true :: mask, entry :: chosen, others => entry :: weave mask chosen others
  | false :: mask, chosen, entry :: others => entry :: weave mask chosen others
  | _, _, _ => []

theorem weave_select {mask : List Bool} {entries : List Nat} (h : entries.length = mask.length) :
    weave mask (select mask true entries) (select mask false entries) = entries := by
  induction mask generalizing entries with
  | nil => simpa [weave, eq_comm] using h
  | cons marked mask ih =>
      cases entries with
      | nil => simp at h
      | cons entry entries =>
          have hrest := ih (Nat.succ.inj h)
          cases marked <;> simp [weave, hrest]

/-- Coordinates on the marked axes and coordinates on the others are the parts of coordinates on all
axes. -/
theorem inBox_weave {mask : List Bool} {extents inner outer : List Nat}
    (hmask : mask.length = extents.length) (hinner : InBox (select mask true extents) inner)
    (houter : InBox (select mask false extents) outer) :
    InBox extents (weave mask inner outer) ∧ select mask true (weave mask inner outer) = inner ∧
      select mask false (weave mask inner outer) = outer := by
  induction mask generalizing extents inner outer with
  | nil =>
      obtain rfl : extents = [] := by simpa using hmask.symm
      have hinner : inner = [] := by simpa using hinner
      have houter : outer = [] := by simpa using houter
      simp [weave, hinner, houter]
  | cons marked mask ih =>
      cases extents with
      | nil => simp at hmask
      | cons extent extents =>
          cases marked with
          | true =>
              simp only [select_cons, if_true] at hinner
              cases hinner with
              | cons hcoord hinner =>
                  have hrest := ih (Nat.succ.inj hmask) hinner (by simpa using houter)
                  simp [weave, hcoord, hrest]
          | false =>
              simp only [select_cons, if_true] at houter
              cases houter with
              | cons hcoord houter =>
                  have hrest := ih (Nat.succ.inj hmask) (by simpa using hinner) houter
                  simp [weave, hcoord, hrest]

/-- The parts of coordinates lie within the parts of the extents. -/
theorem InBox.select {extents coords : List Nat} (h : InBox extents coords) (mask : List Bool)
    (chosen : Bool) : InBox (select mask chosen extents) (select mask chosen coords) := by
  induction h generalizing mask with
  | nil => cases mask <;> simp [Layout.select]
  | cons hcoord _ ih =>
      cases mask with
      | nil => simp
      | cons marked mask =>
          rw [select_cons, select_cons]
          split
          · exact inBox_cons.mpr ⟨hcoord, ih mask⟩
          · exact ih mask

/-- A sum over all axes is the sum over the marked axes plus that over the others. -/
theorem sum_zipWith_select {mask : List Bool} {coords strides : List Nat}
    (hcoords : coords.length = mask.length) (hstrides : strides.length = mask.length) :
    (List.zipWith (· * ·) coords strides).sum =
      (List.zipWith (· * ·) (select mask true coords) (select mask true strides)).sum +
        (List.zipWith (· * ·) (select mask false coords) (select mask false strides)).sum := by
  induction mask generalizing coords strides with
  | nil =>
      obtain rfl : coords = [] := by simpa using hcoords
      simp
  | cons marked mask ih =>
      cases coords with
      | nil => simp at hcoords
      | cons coord coords =>
          cases strides with
          | nil => simp at hstrides
          | cons stride strides =>
              have hrest := ih (Nat.succ.inj hcoords) (Nat.succ.inj hstrides)
              cases marked <;> simp [hrest] <;> omega

/-- Selecting entries goes along with the order in which the axes are taken. -/
theorem arrange_select (order : Order) {mask : List Bool} {entries : List Nat}
    (h : mask.length = entries.length) (chosen : Bool) :
    order.arrange (select mask chosen entries) =
      select (order.arrange mask) chosen (order.arrange entries) := by
  cases order with
  | rowMajor =>
      simp only [Order.arrange, select, List.zip_eq_zipWith, ← List.reverse_zipWith h,
        List.filter_reverse, List.map_reverse]
  | columnMajor => rfl

/-- Entries that are given in the order of a walk are selected by the mask in that order. -/
theorem select_arrange (order : Order) {mask : List Bool} {entries : List Nat}
    (h : mask.length = entries.length) (chosen : Bool) :
    select mask chosen (order.arrange entries) =
      order.arrange (select (order.arrange mask) chosen entries) := by
  rw [← order.arrange_arrange (select mask chosen _), arrange_select order (by simpa using h),
    Order.arrange_arrange]

/-! ## The coordinates of one slice -/

/-- All digits of numbers below the volume, in the order of the numbers. -/
def enumerate (extents : List Nat) : List (List Nat) :=
  (List.range (volume extents)).map (digits extents)

/-- The numbers below a product are counted by a fast and a slow digit. -/
theorem range_mul (extent count : Nat) :
    List.range (extent * count) =
      (List.range count).flatMap fun i ↦
        (List.range extent).map fun digit ↦ digit + extent * i := by
  induction count with
  | zero => simp
  | succ count ih =>
      rw [Nat.mul_succ, List.range_add, ih, List.range_succ, List.flatMap_append]
      simp [Nat.add_comm]

theorem enumerate_cons (extent : Nat) (extents : List Nat) :
    enumerate (extent :: extents) =
      (enumerate extents).flatMap fun coords ↦ (List.range extent).map (· :: coords) := by
  rw [enumerate, volume_cons, range_mul, List.map_flatMap, enumerate, List.flatMap_map]
  apply List.flatMap_congr
  intro i _
  rw [List.map_map]
  exact List.map_congr_left fun digit hdigit ↦ digits_add_mul (List.mem_range.mp hdigit) extents i

/-- A faster axis that is marked does not matter for the choice, and is kept. -/
theorem filter_flatMap_marked (extent : Nat) (mask : List Bool) (outer : List Nat)
    (rows : List (List Nat)) :
    ((rows.flatMap fun row ↦ (List.range extent).map (· :: row)).filter fun coords ↦
        select (true :: mask) false coords = outer).map (select (true :: mask) true) =
      ((rows.filter fun row ↦ select mask false row = outer).map (select mask true)).flatMap
        fun inner ↦ (List.range extent).map (· :: inner) := by
  induction rows with
  | nil => rfl
  | cons row rows ih =>
      rw [List.flatMap_cons, List.filter_append, List.map_append, ih]
      by_cases h : select mask false row = outer <;>
        simp [List.filter_map, Function.comp_def, h]

/-- A faster axis that is not marked is fixed to one coordinate, and left out. -/
theorem filter_flatMap_unmarked {extent coord : Nat} (hcoord : coord < extent) (mask : List Bool)
    (outer : List Nat) (rows : List (List Nat)) :
    ((rows.flatMap fun row ↦ (List.range extent).map (· :: row)).filter fun coords ↦
        select (false :: mask) false coords = coord :: outer).map (select (false :: mask) true) =
      (rows.filter fun row ↦ select mask false row = outer).map (select mask true) := by
  have hone : (List.range extent).filter (fun digit ↦ decide (digit = coord)) = [coord] := by
    have hcount := List.count_eq_one_of_mem List.nodup_range (List.mem_range.mpr hcoord)
    show (List.range extent).filter (· == coord) = [coord]
    rw [List.filter_beq, hcount, List.replicate_one]
  induction rows with
  | nil => rfl
  | cons row rows ih =>
      rw [List.flatMap_cons, List.filter_append, List.map_append, ih]
      by_cases h : select mask false row = outer
      · simp [List.filter_map, Function.comp_def, h, hone]
      · simp [List.filter_map, Function.comp_def, h]

/-- The coordinates that agree with given ones on the axes that are not marked are, on the marked
axes, all coordinates in their order. -/
theorem filter_enumerate {mask : List Bool} {extents outer : List Nat}
    (hmask : mask.length = extents.length) (houter : InBox (select mask false extents) outer) :
    ((enumerate extents).filter fun coords ↦ select mask false coords = outer).map
        (select mask true) = enumerate (select mask true extents) := by
  -- From the slowest axis to the fastest, a marked axis runs freely and any other one is fixed.
  induction mask generalizing extents outer with
  | nil =>
      obtain rfl : extents = [] := by simpa using hmask.symm
      have houter : outer = [] := by simpa using houter
      simp [enumerate, digits, houter]
  | cons marked mask ih =>
      cases extents with
      | nil => simp at hmask
      | cons extent extents =>
          rw [enumerate_cons]
          cases marked with
          | true =>
              rw [filter_flatMap_marked, ih (Nat.succ.inj hmask) (by simpa using houter),
                ← enumerate_cons, select_cons, if_pos rfl]
          | false =>
              simp only [select_cons, if_true] at houter
              cases houter with
              | cons hcoord houter =>
                  rw [filter_flatMap_unmarked hcoord, ih (Nat.succ.inj hmask) houter]
                  simp

theorem length_of_mem_enumerate {extents coords : List Nat} (h : coords ∈ enumerate extents) :
    coords.length = extents.length := by
  obtain ⟨i, _, rfl⟩ := List.mem_map.mp h
  exact length_digits extents i

theorem coordinates_eq_map_enumerate (layout : Layout) :
    layout.coordinates =
      (enumerate (layout.order.arrange layout.extents)).map layout.order.arrange := by
  rw [enumerate, List.map_map, Order.volume_arrange]
  rfl

/-! ## The axes of a list -/

/-- The entries of the listed axes, in the order of the axes. -/
def along (axes entries : List Nat) : List Nat :=
  (entries.zipIdx.filter fun (_, axis) ↦ axes.contains axis).map Prod.fst

/-- The entries of the axes that are not listed, in the order of the axes. -/
def across (axes entries : List Nat) : List Nat :=
  (entries.zipIdx.filter fun (_, axis) ↦ !axes.contains axis).map Prod.fst

/-- For each of `rank` axes, whether it is listed. -/
def listed (axes : List Nat) (rank : Nat) : List Bool :=
  (List.range rank).map axes.contains

theorem select_listed (axes entries : List Nat) (chosen : Bool) :
    select (listed axes entries.length) chosen entries =
      (entries.zipIdx.filter fun (_, axis) ↦ axes.contains axis == chosen).map Prod.fst := by
  have hzip : (listed axes entries.length).zip entries =
      entries.zipIdx.map fun (entry, axis) ↦ (axes.contains axis, entry) := by
    apply List.ext_getElem <;> simp [listed]
  rw [select, hzip, List.filter_map, List.map_map]
  rfl

theorem select_listed_true (axes : List Nat) {entries : List Nat} {rank : Nat}
    (h : entries.length = rank) : select (listed axes rank) true entries = along axes entries := by
  simp [← h, select_listed, along]

theorem select_listed_false (axes : List Nat) {entries : List Nat} {rank : Nat}
    (h : entries.length = rank) :
    select (listed axes rank) false entries = across axes entries := by
  simp [← h, select_listed, across]

/-- Marking axes one after another marks those that are listed. -/
theorem markAxes_eq_ok {axes : List Nat} {mask marked : List Bool}
    (h : markAxes mask axes = .ok marked) :
    marked = mask.zipIdx.map fun (before, axis) ↦ before || axes.contains axis := by
  induction axes generalizing mask with
  | nil =>
      obtain rfl : mask = marked := by simpa [markAxes] using h
      apply List.ext_getElem <;> simp
  | cons axis rest ih =>
      unfold markAxes at h
      split at h
      · simp at h
      · simp at h
      · rw [ih h]
        apply List.ext_getElem
        · simp
        · intro place hplace _
          by_cases heq : axis = place <;> simp [heq, eq_comm]

/-- The mask of a list of axes marks those that are listed. -/
theorem axisMask_eq_ok {axes : List Nat} {rank : Nat} {mask : List Bool}
    (h : axisMask axes rank = .ok mask) : mask = listed axes rank := by
  rw [markAxes_eq_ok h]
  apply List.ext_getElem <;> simp [listed]

@[simp] theorem length_listed (axes : List Nat) (rank : Nat) :
    (listed axes rank).length = rank := by
  simp [listed]

/-- Each listed axis is marked once. -/
theorem count_markAxes {axes : List Nat} {mask marked : List Bool}
    (h : markAxes mask axes = .ok marked) :
    marked.count true = mask.count true + axes.length := by
  induction axes generalizing mask with
  | nil =>
      obtain rfl : mask = marked := by simpa [markAxes] using h
      simp
  | cons axis rest ih =>
      unfold markAxes at h
      split at h
      · simp at h
      · simp at h
      · rename_i hmarked
        obtain ⟨haxis, hfalse⟩ := List.getElem?_eq_some_iff.mp hmarked
        rw [ih h, List.count_set haxis, hfalse]
        simp
        omega

/-- If as many axes are listed as there are, no axis is left. -/
theorem across_eq_nil {axes entries : List Nat} {mask : List Bool}
    (h : axisMask axes entries.length = .ok mask) (hlength : axes.length = entries.length) :
    across axes entries = [] := by
  have hcount : mask.count true = mask.length := by
    rw [count_markAxes h, axisMask_eq_ok h, length_listed, List.count_replicate]
    simpa using hlength
  rw [List.count_eq_length] at hcount
  rw [← select_listed_false axes rfl, ← axisMask_eq_ok h, select, List.map_eq_nil_iff,
    List.filter_eq_nil_iff]
  intro (marked, entry) hmem
  simp [← hcount marked (List.of_mem_zip hmem).1]

theorem along_arrange (axes : List Nat) (order : Order) {entries : List Nat} {rank : Nat}
    (h : entries.length = rank) :
    along axes (order.arrange entries) =
      order.arrange (select (order.arrange (listed axes rank)) true entries) := by
  rw [← select_listed_true axes (by simpa using h), select_arrange order (by simp [h])]

theorem across_arrange (axes : List Nat) (order : Order) {entries : List Nat} {rank : Nat}
    (h : entries.length = rank) :
    across axes (order.arrange entries) =
      order.arrange (select (order.arrange (listed axes rank)) false entries) := by
  rw [← select_listed_false axes (by simpa using h), select_arrange order (by simp [h])]

variable {extents coords : List Nat}

theorem inBox_along (axes : List Nat) (h : InBox extents coords) :
    InBox (along axes extents) (along axes coords) := by
  rw [← select_listed_true axes rfl, ← select_listed_true axes h.length_eq]
  exact h.select _ true

theorem inBox_across (axes : List Nat) (h : InBox extents coords) :
    InBox (across axes extents) (across axes coords) := by
  rw [← select_listed_false axes rfl, ← select_listed_false axes h.length_eq]
  exact h.select _ false

/-- Coordinates along the listed axes and coordinates across them are the parts of coordinates on
all axes. -/
theorem exists_inBox (axes : List Nat) {inner outer : List Nat}
    (hinner : InBox (along axes extents) inner) (houter : InBox (across axes extents) outer) :
    ∃ coords, InBox extents coords ∧ along axes coords = inner ∧ across axes coords = outer := by
  rw [← select_listed_true axes rfl] at hinner
  rw [← select_listed_false axes rfl] at houter
  obtain ⟨hbox, hinner, houter⟩ := inBox_weave (length_listed axes _) hinner houter
  rw [select_listed_true axes hbox.length_eq] at hinner
  rw [select_listed_false axes hbox.length_eq] at houter
  exact ⟨_, hbox, hinner, houter⟩

/-- Coordinates are known by their parts along and across the listed axes. -/
theorem eq_of_along_of_across (axes : List Nat) {left right : List Nat}
    (hleft : InBox extents left) (hright : InBox extents right)
    (halong : along axes left = along axes right) (hacross : across axes left = across axes right) :
    left = right := by
  have hparts {coords : List Nat} (h : InBox extents coords) :
      weave (listed axes extents.length) (along axes coords) (across axes coords) = coords := by
    rw [← select_listed_true axes h.length_eq, ← select_listed_false axes h.length_eq]
    exact weave_select (by simp [h.length_eq])
  rw [← hparts hleft, halong, hacross, hparts hright]

/-- The slice of the element at given coordinates, and the number of the element in its slice. -/
def place (layout : Layout) (axes coords : List Nat) : Nat × Nat :=
  (Order.rowMajor.index (across axes layout.extents) (across axes coords),
    layout.order.index (along axes layout.extents) (along axes coords))

/-- Each element has its own place in a slice, and every place is taken. -/
theorem bijOn_place (layout : Layout) (axes : List Nat) :
    Set.BijOn (layout.place axes) {coords | InBox layout.extents coords}
      {p | p.1 < volume (across axes layout.extents) ∧
        p.2 < volume (along axes layout.extents)} := by
  refine ⟨fun coords h ↦ ?_, fun left hleft right hright heq ↦ ?_, fun (i, j) h ↦ ?_⟩
  · exact ⟨Order.index_lt (inBox_across axes h), Order.index_lt (inBox_along axes h)⟩
  · obtain ⟨hacross, halong⟩ := Prod.mk.inj heq
    exact eq_of_along_of_across axes hleft hright
      ((Order.bijOn_index _ _).injOn (inBox_along axes hleft) (inBox_along axes hright) halong)
      ((Order.bijOn_index _ _).injOn (inBox_across axes hleft) (inBox_across axes hright) hacross)
  · obtain ⟨coords, hbox, halong, hacross⟩ :=
      exists_inBox axes (Order.inBox_coords h.2) (Order.inBox_coords h.1)
    refine ⟨coords, hbox, ?_⟩
    rw [place, halong, hacross, Order.index_coords h.1, Order.index_coords h.2]

end Layout

/-! ## Slices -/

open Layout

/-- The offsets that the slices address, slice after slice. -/
def Slices.offsets (slices : Slices) : List Nat :=
  slices.bases.flatMap fun base ↦ slices.layout.offsets.map (base + ·)

/-- The slices are those of a layout along the listed axes. -/
structure Slices.Along (layout : Layout) (axes : List Nat) (slices : Slices) : Prop where
  addressable : slices.layout.Addressable
  extents_eq : slices.layout.extents = along axes layout.extents
  strides_eq : slices.layout.strides = along axes layout.strides
  order_eq : slices.layout.order = layout.order
  kept_eq : slices.kept = across axes layout.extents
  isSome_count : (Size.count? slices.kept).isSome
  bases_eq :
    slices.bases = (List.range (volume slices.kept)).map fun i ↦
      (List.zipWith (· * ·) (Order.rowMajor.coords slices.kept i)
        (across axes layout.strides)).sum

namespace Layout

/-- What a split can be. The axes exist and are listed once in each of the three cases. -/
theorem splitAlong_eq_ok {layout : Layout} {axes : List Nat} {split : AxisSplit}
    (h : layout.splitAlong axes = .ok split) :
    ∃ mask, axisMask axes layout.rank = .ok mask ∧
      (axes = [] ∧ split = .elements ∨
        axes ≠ [] ∧ axes.length = layout.rank ∧ split = .whole ∨
        axes ≠ [] ∧ ∃ slices, layout.slicesAlong mask = .ok slices ∧ split = .slices slices) := by
  obtain ⟨mask, hmask, hchoice⟩ := bind_eq_ok.mp h
  refine ⟨mask, hmask, ?_⟩
  by_cases hnil : axes = []
  · rw [if_pos (by simp [hnil])] at hchoice
    cases hchoice
    exact .inl ⟨hnil, rfl⟩
  · rw [if_neg (by simpa using hnil)] at hchoice
    by_cases hlength : axes.length = layout.rank
    · rw [if_pos hlength] at hchoice
      cases hchoice
      exact .inr (.inl ⟨hnil, hlength, rfl⟩)
    · rw [if_neg hlength] at hchoice
      obtain ⟨slices, hslices, hpure⟩ := bind_eq_ok.mp hchoice
      cases hpure
      exact .inr (.inr ⟨hnil, slices, hslices, rfl⟩)

/-- A split into slices gives the slices along the listed axes. -/
theorem along_of_splitAlong {layout : Layout} {axes : List Nat} {slices : Slices}
    (hstrides : layout.strides.length = layout.extents.length)
    (h : layout.splitAlong axes = .ok (.slices slices)) : slices.Along layout axes := by
  rcases splitAlong_eq_ok h with ⟨mask, hmask, ⟨_, heq⟩ | ⟨_, _, heq⟩ | ⟨_, found, hslices, heq⟩⟩
  · cases heq
  · cases heq
  cases heq
  obtain rfl := axisMask_eq_ok hmask
  obtain ⟨slice, hslice, hslices⟩ := bind_eq_ok.mp hslices
  obtain ⟨outer, houter, hslices⟩ := bind_eq_ok.mp hslices
  cases hslices
  have hextents : layout.extents.length = layout.rank := rfl
  have hstrides : layout.strides.length = layout.rank := hstrides
  rw [select_listed_true axes hextents, select_listed_true axes hstrides] at hslice
  rw [select_listed_false axes hextents, select_listed_false axes hstrides] at houter
  have haddressable := addressable_of_strided houter
  obtain ⟨_, _, _, _, rfl⟩ := strided_eq_ok_iff.mp hslice
  obtain ⟨_, _, _, hcount, rfl⟩ := strided_eq_ok_iff.mp houter
  rw [select_listed_false axes hextents]
  exact {
    addressable := addressable_of_strided hslice
    extents_eq := rfl
    strides_eq := rfl
    order_eq := rfl
    kept_eq := rfl
    isSome_count := hcount
    bases_eq := by
      rw [haddressable.offsets_eq, coordinates, Order.coordinates, List.map_map]
      rfl }

/-- If axes are chosen, the elements on the others can be counted. -/
theorem isSome_count?_across {layout : Layout} {axes : List Nat} {split : AxisSplit}
    (hstrides : layout.strides.length = layout.extents.length) (haxes : axes ≠ [])
    (h : layout.splitAlong axes = .ok split) :
    (Size.count? (across axes layout.extents)).isSome := by
  rcases splitAlong_eq_ok h with ⟨mask, hmask, ⟨hnil, _⟩ | ⟨_, hlength, _⟩ | ⟨_, slices, _, rfl⟩⟩
  · exact absurd hnil haxes
  · rw [across_eq_nil hmask hlength]
    rfl
  · have hslices := along_of_splitAlong hstrides h
    exact hslices.kept_eq ▸ hslices.isSome_count

end Layout

namespace Slices.Along

variable {layout : Layout} {axes : List Nat} {slices : Slices} (h : slices.Along layout axes)

include h

theorem count_eq : slices.count = volume (across axes layout.extents) := by
  rw [count, h.bases_eq, List.length_map, List.length_range, h.kept_eq]

theorem sliceSize_eq : slices.sliceSize = volume (along axes layout.extents) := by
  rw [sliceSize, size, h.extents_eq]

/-- The base of the slice of an element is the part of its offset from the kept axes. -/
theorem getElem?_bases {coords : List Nat} (hbox : InBox layout.extents coords) :
    slices.bases[(layout.place axes coords).1]? =
      some (List.zipWith (· * ·) (across axes coords) (across axes layout.strides)).sum := by
  have hindex : Order.rowMajor.index (across axes layout.extents) (across axes coords) <
      volume (across axes layout.extents) := Order.index_lt (inBox_across axes hbox)
  simp only [h.bases_eq, place, h.kept_eq, List.getElem?_map, List.getElem?_range hindex,
    Option.map_some, Order.coords_index (inBox_across axes hbox)]

/-- The offset of an element is a part from the kept axes plus its offset within the slice. -/
theorem offsetAt_eq_add (hstrides : layout.strides.length = layout.extents.length)
    {coords : List Nat} (hbox : InBox layout.extents coords) :
    layout.offsetAt coords =
      (List.zipWith (· * ·) (across axes coords) (across axes layout.strides)).sum +
        slices.layout.offsetAt (along axes coords) := by
  have hmask : (listed axes layout.extents.length).length = layout.extents.length := by simp
  rw [offsetAt, offsetAt, h.strides_eq,
    sum_zipWith_select (hbox.length_eq.trans hmask.symm) (hstrides.trans hmask.symm),
    select_listed_true axes hbox.length_eq, select_listed_true axes hstrides,
    select_listed_false axes hbox.length_eq, select_listed_false axes hstrides, Nat.add_comm]

/-- The offset of an element is the base of its slice plus the offset of its place in the slice. -/
theorem offsetAt_eq (hstrides : layout.strides.length = layout.extents.length) {coords : List Nat}
    (hbox : InBox layout.extents coords) :
    ∃ base, slices.bases[(layout.place axes coords).1]? = some base ∧
      base + slices.layout.offsetOf (layout.place axes coords).2 = layout.offsetAt coords := by
  have hinner := inBox_along axes hbox
  rw [← h.extents_eq] at hinner
  refine ⟨_, h.getElem?_bases hbox, ?_⟩
  rw [place, ← h.order_eq, ← h.extents_eq, h.addressable.offsetOf_index hinner,
    ← h.offsetAt_eq_add hstrides hbox]

/-- Going through the slices, and through each slice, leads to every place once. -/
theorem perm_places :
    (layout.coordinates.map (layout.place axes)).Perm
      (List.range slices.count ×ˢ List.range slices.sliceSize) := by
  have hbij := bijOn_place layout axes
  refine (List.perm_ext_iff_of_nodup ?_ (List.nodup_range.product List.nodup_range)).mpr
    fun (i, j) ↦ ?_
  · exact layout.nodup_coordinates.map_on fun left hleft right hright heq ↦
      hbij.injOn (mem_coordinates.mp hleft) (mem_coordinates.mp hright) heq
  · simp only [List.mem_map, mem_coordinates, List.mem_product, List.mem_range, h.count_eq,
      h.sliceSize_eq]
    constructor
    · rintro ⟨coords, hbox, hplace⟩
      have hmem := hbij.mapsTo hbox
      rwa [hplace] at hmem
    · exact fun hp ↦ hbij.surjOn hp

/-- Together the slices address the offsets of the layout, each as often as the layout does. -/
theorem perm_offsets (hlayout : layout.Addressable) : slices.offsets.Perm layout.offsets := by
  -- Both lists of offsets are images of the same pairs of a slice and a place in it.
  have hslices : slices.offsets =
      (List.range slices.count ×ˢ List.range slices.sliceSize).map fun p ↦
        slices.bases.getD p.1 0 + slices.layout.offsetOf p.2 := by
    have hbases : slices.bases = (List.range slices.count).map fun i ↦ slices.bases.getD i 0 := by
      apply List.ext_getElem
      · simp [count]
      · intro i hi _
        simp [hi]
    rw [offsets, h.addressable.offsets_eq_map_range]
    conv_lhs => rw [hbases]
    simp only [SProd.sprod, List.product, List.flatMap_map, List.map_flatMap, List.map_map]
    rfl
  have hlayout : layout.offsets = (layout.coordinates.map (layout.place axes)).map fun p ↦
      slices.bases.getD p.1 0 + slices.layout.offsetOf p.2 := by
    rw [hlayout.offsets_eq, List.map_map]
    apply List.map_congr_left
    intro coords hcoords
    obtain ⟨base, hbase, hoffset⟩ :=
      h.offsetAt_eq hlayout.length_strides (mem_coordinates.mp hcoords)
    rw [← hoffset, Function.comp_apply, List.getD_eq_getElem?_getD, hbase, Option.getD_some]
  rw [hslices, hlayout]
  exact (h.perm_places.map _).symm

/-- The elements of a slice are, in the order of the layout, those with its coordinates on the kept
axes. On the chosen axes they have all coordinates of the slice, in the order of the slice. -/
theorem map_along_filter {outer : List Nat} (houter : InBox (across axes layout.extents) outer) :
    (layout.coordinates.filter fun coords ↦ across axes coords = outer).map (along axes) =
      slices.layout.coordinates := by
  -- Digits are enumerated in the order of the walk, so that the mask is brought into it first.
  have hmask : (listed axes layout.extents.length).length = layout.extents.length := by simp
  have houter' : InBox (select (layout.order.arrange (listed axes layout.extents.length)) false
      (layout.order.arrange layout.extents)) (layout.order.arrange outer) := by
    rw [← arrange_select layout.order hmask, select_listed_false axes rfl]
    exact (Order.inBox_arrange layout.order).mpr houter
  have hfilter := filter_enumerate (by simp) houter'
  rw [← arrange_select layout.order hmask, select_listed_true axes rfl] at hfilter
  have hlength {digits : List Nat}
      (hmem : digits ∈ enumerate (layout.order.arrange layout.extents)) :
      digits.length = layout.extents.length := by
    simpa using length_of_mem_enumerate hmem
  rw [coordinates_eq_map_enumerate, coordinates_eq_map_enumerate, h.order_eq, h.extents_eq,
    ← hfilter, List.filter_map, List.map_map, List.map_map]
  have hsame : (enumerate (layout.order.arrange layout.extents)).filter
        ((fun coords ↦ across axes coords = outer) ∘ layout.order.arrange) =
      (enumerate (layout.order.arrange layout.extents)).filter fun digits ↦
        select (layout.order.arrange (listed axes layout.extents.length)) false digits =
          layout.order.arrange outer := by
    apply List.filter_congr
    intro digits hdigits
    rw [Function.comp_apply, across_arrange axes layout.order (hlength hdigits)]
    exact decide_eq_decide.mpr Order.arrange_eq_iff
  rw [hsame]
  apply List.map_congr_left
  intro digits hdigits
  exact along_arrange axes layout.order (hlength (List.mem_of_mem_filter hdigits))

end Slices.Along

/-- A split into slices is a partition: the coordinates on the kept axes tell the slice of an
element and those on the chosen axes its place in the slice, every place is taken by one element,
and the base of the slice and the offset of the place add up to the offset of the element. -/
theorem Layout.splitAlong_partition {extents strides axes : List Nat} {order : Order}
    {dtype : DType} {layout : Layout} {slices : Slices}
    (hlayout : strided extents strides order dtype = .ok layout)
    (hsplit : layout.splitAlong axes = .ok (.slices slices)) :
    Set.BijOn (layout.place axes) {coords | InBox layout.extents coords}
        {p | p.1 < slices.count ∧ p.2 < slices.sliceSize} ∧
      (∀ coords, InBox layout.extents coords →
        ∃ base, slices.bases[(layout.place axes coords).1]? = some base ∧
          base + slices.layout.offsetOf (layout.place axes coords).2 = layout.offsetAt coords) ∧
      slices.count * slices.sliceSize = layout.size ∧
      slices.offsets.Perm layout.offsets := by
  have haddressable := addressable_of_strided hlayout
  have halong := along_of_splitAlong haddressable.length_strides hsplit
  refine ⟨?_, fun coords hbox ↦ halong.offsetAt_eq haddressable.length_strides hbox, ?_,
    halong.perm_offsets haddressable⟩
  · rw [halong.count_eq, halong.sliceSize_eq]
    exact bijOn_place layout axes
  · have hlength := halong.perm_places.length_eq
    simpa [List.length_product] using hlength.symm

/-- Three pairs, each of them twice. -/
def Layout.repeatedPairs : Layout :=
  make [2, 3, 2] [0, 4, 1] .columnMajor .i32

/-- The slices of which each is one pair twice. -/
def Layout.repeatedPairSlices : Slices :=
  ⟨make [2, 2] [0, 1] .columnMajor .i32, [0, 4, 8], [3]⟩

/-- The slices of a column-major array with a repeated and a gapped axis. -/
theorem Layout.splitAlong_partition_columnMajor :
    strided [2, 3, 2] [0, 4, 1] .columnMajor .i32 = .ok repeatedPairs ∧
      repeatedPairs.splitAlong [2, 0] = .ok (.slices repeatedPairSlices) ∧
      repeatedPairSlices.offsets.Perm repeatedPairs.offsets := by
  have hlayout : strided [2, 3, 2] [0, 4, 1] .columnMajor .i32 = .ok repeatedPairs := rfl
  have hsplit : repeatedPairs.splitAlong [2, 0] = .ok (.slices repeatedPairSlices) := rfl
  exact ⟨hlayout, hsplit, (splitAlong_partition hlayout hsplit).2.2.2⟩

end ArrayEngine
