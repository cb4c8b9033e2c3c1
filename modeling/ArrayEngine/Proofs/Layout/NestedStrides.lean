import ArrayEngine.Proofs.Layout.Reshaped
import ArrayEngine.Proofs.Layout.UniformStride
import Mathlib.Data.List.Perm.Basic
import Mathlib.Data.Set.Finite.Basic

/-!
# Nested strides

The axes of a layout are nested if they can be listed, in whatever order, so that each stride
reaches past all offsets that the axes listed before it can add up to. Then an offset can be decoded
from the last listed axis to the first, and no two elements share a cell (`Nests.injOn_offsetOf`).
The order in which the axes are listed need not be the one in which the elements are numbered: an
exchange of axes changes the numbering and keeps the axes, so that layouts without gaps stay nested,
and their offsets stay the numbers below the size, in another order (`offsets_of_nested`).
-/

namespace ArrayEngine.Layout

/-! ## Nested axes -/

/-- The largest offset along these axes. -/
def reach (axes : List Axis) : Nat :=
  (axes.map fun axis ↦ (axis.extent - 1) * axis.stride).sum

/-- Each stride is at least `least` more than the largest offset along the axes before it. -/
def NestedFrom (least : Nat) (axes : List Axis) : Prop :=
  ∀ before axis after, axes = before ++ axis :: after → least + reach before ≤ axis.stride

@[simp] theorem nestedFrom_nil (least : Nat) : NestedFrom least [] := by
  intro before axis after h
  simp at h

theorem nestedFrom_cons {least : Nat} {axis : Axis} {rest : List Axis} :
    NestedFrom least (axis :: rest) ↔
      least ≤ axis.stride ∧ NestedFrom (least + (axis.extent - 1) * axis.stride) rest := by
  constructor
  · intro h
    refine ⟨by simpa [reach] using h [] axis rest rfl, ?_⟩
    rintro before next after rfl
    have hnext := h (axis :: before) next after rfl
    simpa [reach, Nat.add_assoc] using hnext
  · rintro ⟨haxis, hrest⟩ before next after heq
    cases before with
    | nil =>
        cases heq
        simpa [reach] using haxis
    | cons first before =>
        cases heq
        have hnext := hrest before next after rfl
        simpa [reach, Nat.add_assoc] using hnext

/-- The axes of the layout with more than one coordinate can be listed so that each stride is more
than the largest offset along the axes before it. -/
def Nests (layout : Layout) : Prop :=
  ∃ axes, axes.Perm (layout.walk.filter (1 < ·.extent)) ∧ NestedFrom 1 axes

/-! ## Two elements compared -/

/-- The coordinates of two elements along one axis. -/
structure Compared where
  axis : Axis
  left : Nat
  right : Nat

/-- The coordinates of two elements along axes given from the fastest to the slowest. -/
def compareAlong : List Axis → Nat → Nat → List Compared
  | [], _, _ => []
  | axis :: rest, i, j =>
      ⟨axis, i % axis.extent, j % axis.extent⟩ ::
        compareAlong rest (i / axis.extent) (j / axis.extent)

section

variable (axes : List Axis) (i j : Nat)

theorem map_axis_compareAlong : (compareAlong axes i j).map Compared.axis = axes := by
  induction axes generalizing i j with
  | nil => rfl
  | cons axis rest ih => rw [compareAlong, List.map_cons, ih]

theorem sum_left_compareAlong :
    ((compareAlong axes i j).map fun c ↦ c.left * c.axis.stride).sum = offsetAlong axes i := by
  induction axes generalizing i j with
  | nil => rfl
  | cons axis rest ih => rw [compareAlong, List.map_cons, List.sum_cons, ih, offsetAlong]

theorem sum_right_compareAlong :
    ((compareAlong axes i j).map fun c ↦ c.right * c.axis.stride).sum = offsetAlong axes j := by
  induction axes generalizing i j with
  | nil => rfl
  | cons axis rest ih => rw [compareAlong, List.map_cons, List.sum_cons, ih, offsetAlong]

variable {axes i j} (hi : i < volume (axes.map Axis.extent))
  (hj : j < volume (axes.map Axis.extent))

include hi hj

theorem lt_extent_of_mem_compareAlong {c : Compared} (h : c ∈ compareAlong axes i j) :
    c.left < c.axis.extent ∧ c.right < c.axis.extent := by
  induction axes generalizing i j with
  | nil => simp [compareAlong] at h
  | cons axis rest ih =>
      have hpos : 0 < axis.extent := Nat.pos_of_mul_pos_right (Nat.zero_lt_of_lt hi)
      rcases List.mem_cons.mp h with rfl | hrest
      · exact ⟨Nat.mod_lt _ hpos, Nat.mod_lt _ hpos⟩
      · exact ih (Nat.div_lt_of_lt_mul hi) (Nat.div_lt_of_lt_mul hj) hrest

/-- Elements with the same coordinates are the same. -/
theorem eq_of_compareAlong (h : ∀ c ∈ compareAlong axes i j, c.left = c.right) : i = j := by
  induction axes generalizing i j with
  | nil =>
      rw [List.map_nil, volume_nil] at hi hj
      omega
  | cons axis rest ih =>
      obtain ⟨hdigit, hrest⟩ := List.forall_mem_cons.mp h
      have hdigit : i % axis.extent = j % axis.extent := hdigit
      have hquotient := ih (Nat.div_lt_of_lt_mul hi) (Nat.div_lt_of_lt_mul hj) hrest
      rw [← Nat.mod_add_div i axis.extent, hdigit, hquotient, Nat.mod_add_div]

end

/-! ## Decoding -/

/-- Along nested axes the coordinates can be read off the offset, together with a remainder below
the least stride. -/
theorem NestedFrom.left_eq_right {list : List Compared} {least r s : Nat}
    (hnested : NestedFrom least (list.map Compared.axis))
    (hlist : ∀ c ∈ list, c.left < c.axis.extent ∧ c.right < c.axis.extent)
    (hr : r < least) (hs : s < least)
    (h : r + (list.map fun c ↦ c.left * c.axis.stride).sum =
      s + (list.map fun c ↦ c.right * c.axis.stride).sum) :
    r = s ∧ ∀ c ∈ list, c.left = c.right := by
  induction list generalizing least r s with
  | nil => exact ⟨by simpa using h, by simp⟩
  | cons first rest ih =>
      obtain ⟨hstride, hrest⟩ := nestedFrom_cons.mp hnested
      obtain ⟨⟨hleft, hright⟩, hbehind⟩ := List.forall_mem_cons.mp hlist
      -- Remainder and first coordinate together are a remainder for the axes behind the first one.
      have hleft_le :
          first.left * first.axis.stride ≤ (first.axis.extent - 1) * first.axis.stride :=
        Nat.mul_le_mul_right _ (by omega)
      have hright_le :
          first.right * first.axis.stride ≤ (first.axis.extent - 1) * first.axis.stride :=
        Nat.mul_le_mul_right _ (by omega)
      simp only [List.map_cons, List.sum_cons, ← Nat.add_assoc] at h
      obtain ⟨hhead, hothers⟩ := ih hrest hbehind (by omega) (by omega) h
      have hpos : 0 < first.axis.stride := by omega
      have hfirst : first.left = first.right := by
        have hquotient := congrArg (· / first.axis.stride) hhead
        simpa [Nat.add_mul_div_right _ _ hpos, Nat.div_eq_of_lt (hr.trans_le hstride),
          Nat.div_eq_of_lt (hs.trans_le hstride)] using hquotient
      rw [hfirst] at hhead
      exact ⟨Nat.add_right_cancel hhead, List.forall_mem_cons.mpr ⟨hfirst, hothers⟩⟩

/-- Entries that count for nothing can be left out of a sum. -/
theorem sum_map_filter {α : Type} {p : α → Bool} {f : α → Nat} {entries : List α}
    (h : ∀ entry ∈ entries, ¬p entry → f entry = 0) :
    ((entries.filter p).map f).sum = (entries.map f).sum := by
  induction entries with
  | nil => rfl
  | cons entry rest ih =>
      obtain ⟨hentry, hrest⟩ := List.forall_mem_cons.mp h
      by_cases hp : p entry
      · rw [List.filter_cons_of_pos hp, List.map_cons, List.sum_cons, ih hrest, List.map_cons,
          List.sum_cons]
      · rw [List.filter_cons_of_neg hp, ih hrest, List.map_cons, List.sum_cons, hentry hp,
          Nat.zero_add]

/-- A list whose image can be rearranged can be rearranged itself. -/
theorem exists_perm_of_perm_map {α β : Type} {f : α → β} {entries : List α} {images : List β}
    (h : images.Perm (entries.map f)) :
    ∃ sorted : List α, sorted.map f = images ∧ sorted.Perm entries := by
  have hentries : List.Forall₂ (fun image entry ↦ image = f entry) (entries.map f) entries := by
    rw [List.forall₂_map_left_iff, List.forall₂_same]
    exact fun _ _ ↦ rfl
  obtain ⟨sorted, hsorted, hperm⟩ := List.perm_comp_forall₂ h hentries
  refine ⟨sorted, ?_, hperm⟩
  rw [← List.forall₂_eq_eq_eq, List.forall₂_map_left_iff]
  exact hsorted.flip.imp fun _ _ heq ↦ heq.symm

variable {layout other : Layout}

/-- If the axes of a layout are nested, no two elements have the same offset. -/
theorem Nests.injOn_offsetOf (h : layout.Nests) (hlayout : layout.Addressable) :
    Set.InjOn layout.offsetOf {i | i < layout.size} := by
  intro i (hi : i < layout.size) j (hj : j < layout.size) heq
  obtain ⟨axes, hperm, hnested⟩ := h
  rw [← hlayout.offsetAlong_walk_eq hi, ← hlayout.offsetAlong_walk_eq hj] at heq
  rw [← hlayout.volume_walk] at hi hj
  have hdigits {c : Compared} := lt_extent_of_mem_compareAlong hi hj (c := c)
  -- The coordinates along an axis that is not listed are zero.
  have hunlisted : ∀ c ∈ compareAlong layout.walk i j,
      ¬1 < c.axis.extent → c.left = 0 ∧ c.right = 0 := by
    intro c hc hunit
    have := hdigits hc
    omega
  have hlisted : layout.walk.filter (1 < ·.extent) =
      ((compareAlong layout.walk i j).filter (1 < ·.axis.extent)).map Compared.axis := by
    conv_lhs => rw [← map_axis_compareAlong layout.walk i j]
    rw [List.filter_map]
    rfl
  obtain ⟨sorted, rfl, hsorted⟩ := exists_perm_of_perm_map (hlisted ▸ hperm)
  have hleft : (sorted.map fun c ↦ c.left * c.axis.stride).sum = offsetAlong layout.walk i := by
    rw [(hsorted.map _).sum_eq, sum_map_filter, sum_left_compareAlong]
    intro c hc hunit
    rw [(hunlisted c hc (by simpa using hunit)).1, Nat.zero_mul]
  have hright : (sorted.map fun c ↦ c.right * c.axis.stride).sum = offsetAlong layout.walk j := by
    rw [(hsorted.map _).sum_eq, sum_map_filter, sum_right_compareAlong]
    intro c hc hunit
    rw [(hunlisted c hc (by simpa using hunit)).2, Nat.zero_mul]
  obtain ⟨-, hsame⟩ := hnested.left_eq_right
    (fun c hc ↦ hdigits (List.mem_of_mem_filter (hsorted.mem_iff.mp hc))) Nat.one_pos Nat.one_pos
    (by rw [hleft, hright, heq])
  refine eq_of_compareAlong hi hj fun c hc ↦ ?_
  by_cases hmany : 1 < c.axis.extent
  · exact hsame c (hsorted.mem_iff.mpr (List.mem_filter.mpr ⟨hc, by simpa using hmany⟩))
  · rw [(hunlisted c hc hmany).1, (hunlisted c hc hmany).2]

/-! ## Layouts without gaps -/

/-- Evenly spaced axes are nested in the order of the walk. -/
theorem SpacedBy.nestedFrom {axes : List Axis} {step : Nat} (hspaced : SpacedBy axes step)
    (hpos : 0 < volume (axes.map Axis.extent)) :
    NestedFrom step (axes.filter (1 < ·.extent)) := by
  induction axes generalizing step with
  | nil => exact nestedFrom_nil step
  | cons axis rest ih =>
      obtain ⟨hstride, hrest⟩ := hspaced.of_cons hpos
      rw [List.map_cons, volume_cons] at hpos
      have hextent : 0 < axis.extent := Nat.pos_of_mul_pos_right hpos
      have hbehind := ih hrest (Nat.pos_of_mul_pos_left hpos)
      by_cases hunit : axis.extent = 1
      · rw [hunit, Nat.mul_one] at hbehind
        rwa [List.filter_cons_of_neg (by simp [hunit])]
      · obtain rfl := hstride hunit
        have hwider :
            axis.stride + (axis.extent - 1) * axis.stride = axis.stride * axis.extent := by
          obtain ⟨last, hlast⟩ : ∃ last, axis.extent = last + 1 := ⟨axis.extent - 1, by omega⟩
          rw [hlast, Nat.add_sub_cancel]
          ring
        rw [List.filter_cons_of_pos (by simp; omega)]
        exact nestedFrom_cons.mpr ⟨le_rfl, hwider ▸ hbehind⟩

namespace Addressable

variable (hlayout : layout.Addressable)

include hlayout

/-- Elements that lie one behind the other lie on nested axes. -/
theorem nests_of_isPacked (hpacked : layout.isPacked) (hpos : 0 < layout.size) : layout.Nests := by
  refine ⟨_, List.Perm.refl _, SpacedBy.nestedFrom ?_ (hlayout.volume_walk.symm ▸ hpos)⟩
  have huniform : layout.uniformStride = some 1 := by simpa [isPacked] using hpacked
  intro i hi
  exact hlayout.offsetAlong_walk_of_uniformStride huniform (hlayout.volume_walk ▸ hi)

theorem lastOffset_eq_reach :
    lastOffset layout.extents layout.strides = reach layout.walk := by
  rw [← lastOffset_arrange layout.order hlayout.length_strides.symm,
    ← map_extent_walk hlayout.length_strides, ← map_stride_walk hlayout.length_strides, lastOffset,
    List.zipWith_map, List.zipWith_self, reach]

/-! ## Exchanging axes -/

section

variable (hother : other.Addressable) (hwalk : other.walk.Perm layout.walk)

include hother hwalk

theorem size_eq_of_perm_walk : other.size = layout.size := by
  rw [← hother.volume_walk, ← hlayout.volume_walk, volume_eq_prod, volume_eq_prod,
    (hwalk.map _).prod_eq]

theorem requiredCells_eq_of_perm_walk : other.requiredCells = layout.requiredCells := by
  have hsize := hlayout.size_eq_of_perm_walk hother hwalk
  rcases Nat.eq_zero_or_pos layout.size with hzero | hpos
  · rw [requiredCells_of_size_eq_zero hzero, requiredCells_of_size_eq_zero (hsize.trans hzero)]
  · have hpos' : 0 < other.size := hsize.symm ▸ hpos
    rw [hlayout.requiredCells_eq (volume_pos_iff.mp hpos),
      hother.requiredCells_eq (volume_pos_iff.mp hpos'), hlayout.lastOffset_eq_reach,
      hother.lastOffset_eq_reach, reach, reach, (hwalk.map _).sum_eq]

end

/-- Exchanging two axes keeps the axes. -/
theorem perm_walk_of_transpose {i j : Nat} (h : layout.transpose i j = .ok other) :
    other.walk.Perm layout.walk := by
  obtain ⟨hi, hj, rfl⟩ := transpose_eq_ok_iff.mp h
  refine (Order.arrange_perm _ _).trans (.trans ?_ (Order.arrange_perm _ _).symm)
  exact zipWith_exchange_perm Axis.mk hi hj hlayout.length_strides.symm

/-- Exchanging axes any number of times keeps the axes. -/
theorem perm_walk_of_transposes {swaps : List (Nat × Nat)}
    (h : layout.reshapeAll (swaps.map fun swap ↦ .transpose swap.1 swap.2) = .ok other) :
    other.Addressable ∧ other.walk.Perm layout.walk := by
  refine reshapeAll_induction (P := fun other ↦ other.Addressable ∧ other.walk.Perm layout.walk)
    ?_ ⟨hlayout, .refl _⟩ h
  rintro reshaping hmem before after ⟨hbefore, hkept⟩ hstep
  obtain ⟨⟨i, j⟩, -, rfl⟩ := List.mem_map.mp hmem
  exact ⟨hbefore.of_transpose hstep, (hbefore.perm_walk_of_transpose hstep).trans hkept⟩

/-- If the elements lie one behind the other, their offsets are the numbers below the size, and are
these numbers in another order after axes were exchanged. -/
theorem bijOn_offsetOf_of_transposes (hpacked : layout.isPacked) (hpos : 0 < layout.size)
    {swaps : List (Nat × Nat)}
    (h : layout.reshapeAll (swaps.map fun swap ↦ .transpose swap.1 swap.2) = .ok other) :
    Set.BijOn other.offsetOf {i | i < other.size} {i | i < other.size} := by
  obtain ⟨hother, hwalk⟩ := hlayout.perm_walk_of_transposes h
  obtain ⟨axes, hperm, hnested⟩ := hlayout.nests_of_isPacked hpacked hpos
  have hnests : other.Nests := ⟨axes, hperm.trans (hwalk.symm.filter _), hnested⟩
  -- No offset is larger than that of the last element before the exchange.
  have hcells : other.requiredCells ≤ other.size := by
    rw [hlayout.requiredCells_eq_of_perm_walk hother hwalk,
      hlayout.size_eq_of_perm_walk hother hwalk, hlayout.requiredCells_le_iff]
    intro i hi
    rw [← List.mem_range, ← hlayout.offsets_of_isPacked hpacked]
    exact List.mem_of_getElem? (hlayout.getElem?_offsets hi)
  exact ((Set.finite_lt_nat _).injOn_iff_bijOn_of_mapsTo
    (hother.requiredCells_le_iff.mp hcells)).mp (hnests.injOn_offsetOf hother)

end Addressable

/-- The elements of an accepted layout whose axes are nested have offsets of their own, whether they
are found by the layout or by an indexer. If axes of a layout with elements and without gaps are
exchanged any number of times, the offsets are the numbers below the size, each of them once. -/
theorem offsets_of_nested :
    (∀ {extents strides : List Nat} {order : Order} {dtype : DType} {layout : Layout},
      strided extents strides order dtype = .ok layout → layout.Nests →
        Set.InjOn layout.offsetOf {i | i < layout.size} ∧
          Set.InjOn (Indexer.ofLayout layout).offsetOf {i | i < layout.size}) ∧
    ∀ {extents : List Nat} {order : Order} {dtype : DType} {start layout : Layout}
      {swaps : List (Nat × Nat)},
      start = packed extents order dtype ∧ volume extents < Size.limit ∨
          (∃ strides, strided extents strides order dtype = .ok start) ∧ start.isPacked →
        0 < start.size →
        start.reshapeAll (swaps.map fun swap ↦ .transpose swap.1 swap.2) = .ok layout →
          layout.size = start.size ∧
          Set.BijOn layout.offsetOf {i | i < layout.size} {i | i < layout.size} ∧
          Set.BijOn (Indexer.ofLayout layout).offsetOf {i | i < layout.size}
            {i | i < layout.size} := by
  constructor
  · intro extents strides order dtype layout hlayout hnests
    have haddressable := addressable_of_strided hlayout
    have hinjective := hnests.injOn_offsetOf haddressable
    exact ⟨hinjective, hinjective.congr fun i hi ↦ (haddressable.offsetOf_ofLayout hi).symm⟩
  · intro extents order dtype start layout swaps hstart hpos hlayout
    obtain ⟨haddressable, hpacked⟩ : start.Addressable ∧ start.isPacked := by
      rcases hstart with ⟨rfl, hvolume⟩ | ⟨⟨strides, hstrides⟩, hpacked⟩
      · exact ⟨addressable_packed hvolume order dtype,
          isPacked_packed (isSome_count? hpos hvolume) order dtype⟩
      · exact ⟨addressable_of_strided hstrides, hpacked⟩
    obtain ⟨hother, hwalk⟩ := haddressable.perm_walk_of_transposes hlayout
    have hoffsets := haddressable.bijOn_offsetOf_of_transposes hpacked hpos hlayout
    exact ⟨haddressable.size_eq_of_perm_walk hother hwalk, hoffsets,
      hoffsets.congr fun i hi ↦ (hother.offsetOf_ofLayout hi).symm⟩

/-- Rows that lie within each other's gaps. -/
def interleaved : Layout :=
  make [2, 3, 1, 2] [13, 2, 0, 7] .rowMajor .f64

/-- The axes of an array without gaps, turned. -/
def turned : Layout :=
  make [3, 5, 4] [4, 12, 1] .columnMajor .i8

/-- Strides that nest from the middle axis to the last and then to the first, around an axis with a
single coordinate, and a column-major array whose axes were exchanged twice. -/
theorem offsets_of_nested_interleaved :
    strided [2, 3, 1, 2] [13, 2, 0, 7] .rowMajor .f64 = .ok interleaved ∧
      interleaved.Nests ∧
      Set.InjOn interleaved.offsetOf {i | i < 12} ∧
      (packed [4, 3, 5] .columnMajor .i8).reshapeAll [.transpose 0 2, .transpose 1 0] = .ok turned ∧
      Set.BijOn turned.offsetOf {i | i < 60} {i | i < 60} := by
  have hlayout : strided [2, 3, 1, 2] [13, 2, 0, 7] .rowMajor .f64 = .ok interleaved := rfl
  have hnests : interleaved.Nests := by
    refine ⟨[⟨3, 2⟩, ⟨2, 7⟩, ⟨2, 13⟩], ?_, ?_⟩
    · decide
    · simp only [nestedFrom_cons, nestedFrom_nil]
      decide
  have hreshaped : (packed [4, 3, 5] .columnMajor .i8).reshapeAll
      ([(0, 2), (1, 0)].map fun swap ↦ .transpose swap.1 swap.2) = .ok turned := rfl
  have hpermuted := offsets_of_nested.2 (.inl ⟨rfl, by decide⟩) (by decide) hreshaped
  exact ⟨hlayout, hnests, (offsets_of_nested.1 hlayout hnests).1, hreshaped, hpermuted.2.1⟩

end ArrayEngine.Layout
