import ArrayEngine.Proofs.Layout.AxisSplit

/-!
# When a layout can be split

The layouts of the slices of an array are built with checks of their own. If the array has elements
and not too many axes, these checks cannot fail: on some of the axes there are no more elements, and
no larger offsets, than on all of them. Such an array can be split along every list of axes that
exist and are named once (`Addressable.exists_splitAlong`).
-/

namespace ArrayEngine.Layout

variable {mask : List Bool} {extents strides : List Nat}

/-- A checked product of extents that leave room for elements succeeds if it is a size. -/
theorem foldlM_mul?_eq {first : Nat} (hpos : 0 < volume extents)
    (hlimit : first * volume extents < Size.limit) :
    extents.foldlM Size.mul? first = some (first * volume extents) := by
  induction extents generalizing first with
  | nil => simp
  | cons extent rest ih =>
      rw [volume_cons] at hpos hlimit ⊢
      have hrest : 0 < volume rest := Nat.pos_of_mul_pos_left hpos
      have hproduct : Size.mul? first extent = some (first * extent) :=
        Size.mul?_eq_some_iff.mpr ⟨(mulClamped_eq hrest hlimit).1, rfl⟩
      rw [← Nat.mul_assoc] at hlimit ⊢
      rw [List.foldlM_cons, hproduct]
      exact ih hrest hlimit

theorem isSome_count? (hpos : 0 < volume extents) (hlimit : volume extents < Size.limit) :
    (Size.count? extents).isSome := by
  rw [Size.count?, foldlM_mul?_eq hpos (by simpa using hlimit)]
  rfl

/-! ## Some of the axes -/

theorem length_select_le (mask : List Bool) (chosen : Bool) (entries : List Nat) :
    (select mask chosen entries).length ≤ entries.length :=
  calc (select mask chosen entries).length ≤ (mask.zip entries).length := by
        rw [select, List.length_map]
        exact List.length_filter_le _ _
    _ ≤ entries.length := by
        rw [List.length_zip]
        exact Nat.min_le_right _ _

/-- As many strides as extents are selected. -/
theorem length_select_eq (h : strides.length = extents.length) (mask : List Bool) (chosen : Bool) :
    (select mask chosen strides).length = (select mask chosen extents).length := by
  induction mask generalizing extents strides with
  | nil => rfl
  | cons marked mask ih =>
      cases extents with
      | nil =>
          obtain rfl : strides = [] := by simpa using h
          rfl
      | cons extent extents =>
          cases strides with
          | nil => simp at h
          | cons stride strides =>
              have hrest := ih (Nat.succ.inj h)
              rw [select_cons, select_cons]
              split
              · rw [List.length_cons, List.length_cons, hrest]
              · exact hrest

/-- An array with elements has elements on some of its axes, and no more than on all. -/
theorem volume_select_le (hpos : 0 < volume extents) (mask : List Bool) (chosen : Bool) :
    0 < volume (select mask chosen extents) ∧
      volume (select mask chosen extents) ≤ volume extents := by
  induction mask generalizing extents with
  | nil => exact ⟨Nat.one_pos, hpos⟩
  | cons marked mask ih =>
      cases extents with
      | nil => exact ⟨Nat.one_pos, hpos⟩
      | cons extent extents =>
          rw [volume_cons] at hpos ⊢
          have hextent : 0 < extent := Nat.pos_of_mul_pos_right hpos
          obtain ⟨hselected, hle⟩ := ih (Nat.pos_of_mul_pos_left hpos)
          rw [select_cons]
          split
          · exact ⟨Nat.mul_pos hextent hselected, Nat.mul_le_mul_left extent hle⟩
          · exact ⟨hselected, hle.trans (Nat.le_mul_of_pos_left _ hextent)⟩

/-- On some of the axes no offset is larger than the last one on all of them. -/
theorem lastOffset_select_le (mask : List Bool) (chosen : Bool) (extents strides : List Nat) :
    lastOffset (select mask chosen extents) (select mask chosen strides) ≤
      lastOffset extents strides := by
  induction mask generalizing extents strides with
  | nil => exact Nat.zero_le _
  | cons marked mask ih =>
      cases extents with
      | nil => exact Nat.zero_le _
      | cons extent extents =>
          cases strides with
          | nil => simp [lastOffset, select]
          | cons stride strides =>
              have hrest := ih extents strides
              rw [select_cons, select_cons, lastOffset_cons]
              split
              · rw [lastOffset_cons]
                exact Nat.add_le_add_left hrest _
              · exact hrest.trans (Nat.le_add_left _ _)

/-! ## Splits -/

/-- Axes that do not exist or are named twice are an error of the split. -/
theorem splitAlong_of_axisMask_error {layout : Layout} {axes : List Nat} {error : Error}
    (h : axisMask axes layout.rank = .error error) : layout.splitAlong axes = .error error := by
  rw [splitAlong, h]
  rfl

namespace Addressable

variable {layout : Layout} (hlayout : layout.Addressable) (hrank : layout.rank ≤ maxRank)
  (hpos : 0 < layout.size)

include hlayout hrank hpos

/-- The layout of some of the axes is accepted. -/
theorem strided_select (mask : List Bool) (chosen : Bool) (order : Order) :
    strided (select mask chosen layout.extents) (select mask chosen layout.strides) order
        layout.dtype =
      .ok (make (select mask chosen layout.extents) (select mask chosen layout.strides) order
        layout.dtype) := by
  obtain ⟨hselected, hvolume⟩ := volume_select_le hpos mask chosen
  have hlast := hlayout.lastOffset_lt (volume_pos_iff.mp hpos)
  have hspan := span?_eq_some_iff.mpr
    (.inr ⟨volume_pos_iff.mp hselected, (lastOffset_select_le ..).trans_lt hlast, rfl⟩)
  refine strided_eq_ok_iff.mpr ⟨(length_select_le ..).trans hrank,
    length_select_eq hlayout.length_strides mask chosen, Option.isSome_of_eq_some hspan, ?_, rfl⟩
  exact isSome_count? hselected (hvolume.trans_lt hlayout.size_lt)

theorem exists_slicesAlong (mask : List Bool) : ∃ slices, layout.slicesAlong mask = .ok slices :=
  ⟨_, bind_eq_ok.mpr ⟨_, hlayout.strided_select hrank hpos mask true layout.order,
    bind_eq_ok.mpr ⟨_, hlayout.strided_select hrank hpos mask false .rowMajor, rfl⟩⟩⟩

/-- Axes that exist and are named once split the layout. -/
theorem exists_splitAlong {axes : List Nat} (h : axisMask axes layout.rank = .ok mask) :
    ∃ split, layout.splitAlong axes = .ok split := by
  obtain ⟨slices, hslices⟩ := hlayout.exists_slicesAlong hrank hpos mask
  by_cases hnil : axes.isEmpty
  · exact ⟨.elements, bind_eq_ok.mpr ⟨mask, h, if_pos hnil⟩⟩
  · by_cases hall : axes.length = layout.rank
    · exact ⟨.whole, bind_eq_ok.mpr ⟨mask, h, (if_neg hnil).trans (if_pos hall)⟩⟩
    · refine ⟨.slices slices, bind_eq_ok.mpr ⟨mask, h, ?_⟩⟩
      refine ((if_neg hnil).trans (if_neg hall)).trans ?_
      exact bind_eq_ok.mpr ⟨slices, hslices, rfl⟩

end Addressable

end ArrayEngine.Layout
