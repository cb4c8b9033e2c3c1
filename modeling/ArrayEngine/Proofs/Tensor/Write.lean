import ArrayEngine.Proofs.Reduction.Agreement
import Mathlib.Data.Nat.SuccPred

/-!
# What a write leaves behind

If the layout of an array gives each element a cell of its own, the elements that are written to the
array are those that it lists afterwards (`toList?_of_write`). The list of the elements tells what
the array holds at given coordinates (`Valid.patternAt?_eq`), so that two arrays with the same list
hold the same elements at coordinates with the same number, and at the same coordinates if their
orders agree (`sameElements_of_toList?_eq`).

Elements may also share a cell, as they do in an array that was spread over a larger shape. Then the
value written for the last of them is the one that stays, and all of them are read back as this
value. `write_outcome` says this of every array, with what a write refuses and what it leaves alone.
-/

namespace ArrayEngine

open Layout

section

variable {α : Type} {cells : Array α} {offsets : List Nat} {values : List α}

/-- Cells whose offset is not listed keep what they hold. -/
theorem getElem?_scatter_of_notMem {offset : Nat} (h : offset ∉ offsets) :
    (scatter cells offsets values)[offset]? = cells[offset]? := by
  induction offsets generalizing cells values with
  | nil => rfl
  | cons first rest ih =>
      obtain ⟨hne, hrest⟩ := List.ne_and_not_mem_of_not_mem_cons h
      cases values with
      | nil => rfl
      | cons value values =>
          show (scatter (cells.setIfInBounds first value) rest values)[offset]? = _
          rw [ih hrest, Array.getElem?_setIfInBounds_ne hne.symm]

/-- It does not matter to a write what the cells at the listed offsets hold before. -/
theorem scatter_congr {others : Array α} (hlength : values.length = offsets.length)
    (hsize : cells.size = others.size)
    (h : ∀ offset, offset ∉ offsets → cells[offset]? = others[offset]?) :
    scatter cells offsets values = scatter others offsets values := by
  induction offsets generalizing cells others values with
  | nil =>
      have hsame : cells = others := Array.ext_getElem? fun offset ↦ h offset List.not_mem_nil
      rw [hsame]
  | cons first rest ih =>
      obtain ⟨value, values, rfl⟩ := List.exists_cons_of_length_eq_add_one hlength
      show scatter (cells.setIfInBounds first value) rest values =
        scatter (others.setIfInBounds first value) rest values
      refine ih (Nat.succ.inj hlength) (by simpa using hsize) fun offset hrest ↦ ?_
      rw [Array.getElem?_setIfInBounds, Array.getElem?_setIfInBounds, hsize]
      by_cases hfirst : first = offset
      · rw [if_pos hfirst, if_pos hfirst]
      · rw [if_neg hfirst, if_neg hfirst]
        exact h offset (List.not_mem_cons_of_ne_of_not_mem (Ne.symm hfirst) hrest)

/-- Writing the same values once more changes nothing. -/
theorem scatter_scatter (hlength : values.length = offsets.length) :
    scatter (scatter cells offsets values) offsets values = scatter cells offsets values :=
  scatter_congr hlength (size_scatter ..) fun _ ↦ getElem?_scatter_of_notMem

/-- A cell holds the value that was written to it last. -/
theorem getElem?_scatter_of_last {offset j : Nat} {value : α} (hoffset : offsets[j]? = some offset)
    (hlast : ∀ k, j < k → offsets[k]? ≠ some offset) (hvalue : values[j]? = some value)
    (hinside : offset < cells.size) : (scatter cells offsets values)[offset]? = some value := by
  induction offsets generalizing cells values j with
  | nil => simp at hoffset
  | cons first rest ih =>
      cases values with
      | nil => simp at hvalue
      | cons head values =>
          show (scatter (cells.setIfInBounds first head) rest values)[offset]? = _
          cases j with
          | zero =>
              obtain rfl : first = offset := by simpa using hoffset
              obtain rfl : head = value := by simpa using hvalue
              have hfirst : first ∉ rest := by
                intro hmem
                obtain ⟨k, hk⟩ := List.mem_iff_getElem?.mp hmem
                exact hlast (k + 1) (by omega) (by simpa using hk)
              rw [getElem?_scatter_of_notMem hfirst]
              exact Array.getElem?_setIfInBounds_self_of_lt hinside
          | succ j =>
              have hbehind : ∀ k, j < k → rest[k]? ≠ some offset := by
                intro k hk
                simpa using hlast (k + 1) (by omega)
              exact ih (by simpa using hoffset) hbehind (by simpa using hvalue)
                (by simpa using hinside)

/-- Values that are written to cells of their own are read back. -/
theorem gather_scatter (hnodup : offsets.Nodup) (hlength : values.length = offsets.length)
    (hinside : ∀ offset ∈ offsets, offset < cells.size) :
    gather (scatter cells offsets values) offsets = values := by
  apply List.ext_getElem?
  intro i
  rw [getElem?_gather (by simpa using hinside)]
  by_cases hi : i < offsets.length
  · have hvalue : i < values.length := by omega
    -- No other write goes to the cell of the `i`-th one.
    have hlast : ∀ k, i < k → offsets[k]? ≠ some offsets[i] := by
      intro k hk heq
      obtain ⟨hlt, hsame⟩ := List.getElem?_eq_some_iff.mp heq
      exact hk.ne' ((List.Nodup.getElem_inj_iff hnodup).mp hsame)
    rw [List.getElem?_eq_getElem hi, List.getElem?_eq_getElem hvalue, Option.bind_some]
    exact getElem?_scatter_of_last (List.getElem?_eq_getElem hi) hlast
      (List.getElem?_eq_getElem hvalue) (hinside _ (List.getElem_mem hi))
  · rw [List.getElem?_eq_none (by omega), List.getElem?_eq_none (by omega), Option.bind_none]

/-- Writing back what the cells hold changes nothing. -/
theorem scatter_gather (hinside : ∀ offset ∈ offsets, offset < cells.size) :
    scatter cells offsets (gather cells offsets) = cells := by
  induction offsets with
  | nil => rfl
  | cons offset rest ih =>
      have hoffset := hinside offset (by simp)
      have hsame : cells.setIfInBounds offset cells[offset] = cells := by
        simp [Array.setIfInBounds, hoffset]
      have hgather : gather cells (offset :: rest) = cells[offset] :: gather cells rest := by
        simp [gather, hoffset]
      rw [hgather]
      show scatter (cells.setIfInBounds offset cells[offset]) rest (gather cells rest) = _
      rw [hsame, ih fun o ho ↦ hinside o (by simp [ho])]

end

namespace Tensor

variable {tensor other left : Tensor} {dtype : DType} {values : List (Scalar dtype)}
  {cells : Array (Scalar dtype)}

/-- A write is accepted exactly if the values are as many as the elements and of their type. It
changes nothing but the cells of the elements. -/
theorem write_eq_ok_iff :
    write values tensor = .ok () left ↔ values.length = tensor.size ∧
      ∃ cells, tensor.storage = ⟨dtype, cells⟩ ∧
        left = ⟨tensor.layout, ⟨dtype, scatter cells tensor.layout.offsets values⟩⟩ := by
  obtain ⟨layout, ⟨held, cells⟩⟩ := tensor
  unfold write
  by_cases hlength : values.length = (Tensor.mk layout ⟨held, cells⟩).size
  · rw [if_neg (not_not.mpr hlength)]
    by_cases hdtype : held = dtype
    · subst hdtype
      simp [Storage.modify?, Except.map, hlength, eq_comm]
    · simp [Storage.modify?, Storage.cells?, Except.map, hdtype]
  · rw [if_pos hlength]
    simp [hlength]

theorem layout_of_write (h : write values tensor = .ok () left) : left.layout = tensor.layout := by
  obtain ⟨_, _, _, rfl⟩ := write_eq_ok_iff.mp h
  rfl

/-- Values that were written can be written once more, and this changes nothing. -/
theorem write_write (h : write values tensor = .ok () left) :
    write values left = .ok () left := by
  obtain ⟨hlength, cells, -, rfl⟩ := write_eq_ok_iff.mp h
  refine write_eq_ok_iff.mpr ⟨hlength, _, rfl, ?_⟩
  rw [scatter_scatter (hlength.trans (length_offsets tensor.layout).symm)]

/-- In an array without gaps, the first cells of the buffer are those of the elements. -/
theorem toList?_eq_map_gather (hlayout : tensor.layout.Addressable) :
    tensor.toList? dtype =
      (tensor.storage.cells? dtype).map (gather · tensor.layout.offsets) := by
  unfold toList?
  congr 1
  funext cells
  split
  · rename_i hpacked
    rw [hlayout.offsets_of_isPacked hpacked, gather_range]
    rfl
  · rfl

/-- The elements are listed in the type in which the buffer holds them. -/
theorem toList?_eq_ok_iff (hlayout : tensor.layout.Addressable) :
    tensor.toList? dtype = .ok values ↔
      ∃ cells, tensor.storage = ⟨dtype, cells⟩ ∧ values = gather cells tensor.layout.offsets := by
  rw [toList?_eq_map_gather hlayout]
  obtain ⟨layout, ⟨held, cells⟩⟩ := tensor
  by_cases hdtype : held = dtype
  · subst hdtype
    simp [Except.map, eq_comm]
  · simp [Storage.cells?, Except.map, hdtype]

/-- A copy writes the elements of its source. -/
theorem copyFrom_eq_write {platform : Platform} {source : Tensor} (hdtype : source.dtype = dtype)
    (hcomputes : platform.computes dtype) (hvalues : source.toList? dtype = .ok values) :
    copyFrom platform source = write values := by
  subst hdtype
  have haccepted : platform.require source.dtype "copy" = .ok () := if_pos hcomputes
  funext tensor
  simp only [copyFrom, haccepted, hvalues]

/-- Elements of a type that cannot be computed with are not copied. -/
theorem copyFrom_refused {platform : Platform} {source : Tensor} (hdtype : source.dtype = dtype)
    (hrefused : ¬platform.computes dtype) (tensor : Tensor) :
    copyFrom platform source tensor = .error (.unsupportedType dtype "copy") tensor := by
  subst hdtype
  have hrequire : platform.require source.dtype "copy" =
      .error (.unsupportedType source.dtype "copy") := if_neg hrefused
  simp only [copyFrom, hrequire]

namespace Valid

variable (htensor : tensor.Valid)

include htensor

/-- The offsets of all elements lie within the buffer. -/
theorem offset_lt {offset : Nat} (h : offset ∈ tensor.layout.offsets) :
    offset < tensor.storage.size :=
  offset_lt_size htensor.addressable htensor.requiredCells_le h

/-- The cells of the array can be seen in its own type, and all its elements are there. -/
theorem exists_toList? (hdtype : tensor.dtype = dtype) :
    ∃ values, tensor.toList? dtype = .ok values ∧ values.length = tensor.size := by
  obtain ⟨layout, ⟨held, cells⟩⟩ := tensor
  obtain rfl : held = dtype := htensor.dtype_eq.trans hdtype
  refine ⟨_, (toList?_eq_ok_iff htensor.addressable).mpr ⟨cells, rfl, rfl⟩, ?_⟩
  rw [length_gather fun _ ↦ htensor.offset_lt, length_offsets, size]

theorem offset_lt_cells (hcells : tensor.storage = ⟨dtype, cells⟩) {offset : Nat}
    (h : offset ∈ tensor.layout.offsets) :
    offset < cells.size := by
  have hlt := htensor.offset_lt h
  rwa [hcells] at hlt

/-- The `i`-th element is the cell at its offset. -/
theorem getElem?_toList? (hcells : tensor.storage = ⟨dtype, cells⟩)
    (h : tensor.toList? dtype = .ok values) {i : Nat} (hi : i < tensor.size) :
    values[i]? = cells[tensor.layout.offsetOf i]? := by
  obtain ⟨cells', heq, rfl⟩ := (toList?_eq_ok_iff htensor.addressable).mp h
  cases hcells.symm.trans heq
  rw [getElem?_gather fun _ ↦ htensor.offset_lt_cells hcells,
    htensor.addressable.getElem?_offsets hi, Option.bind_some]

/-- The cell at given coordinates is the element that the array lists under their number. -/
theorem getElem?_offsetAt (hcells : tensor.storage = ⟨dtype, cells⟩)
    (h : tensor.toList? dtype = .ok values) {coords : List Nat}
    (hbox : InBox tensor.extents coords) :
    cells[tensor.layout.offsetAt coords]? =
      values[tensor.layout.order.index tensor.extents coords]? := by
  have hindex : tensor.layout.order.index tensor.layout.extents coords < tensor.layout.size :=
    Order.index_lt hbox
  rw [← htensor.addressable.offsetOf_index hbox]
  exact (htensor.getElem?_toList? hcells h hindex).symm

/-- At given coordinates an array holds the element that it lists under their number. -/
theorem patternAt?_eq (h : tensor.toList? dtype = .ok values) {coords : List Nat}
    (hbox : InBox tensor.extents coords) :
    tensor.patternAt? coords =
      (values[tensor.layout.order.index tensor.extents coords]?).map Scalar.pattern := by
  obtain ⟨layout, ⟨held, cells⟩⟩ := tensor
  obtain ⟨cells', hcells, -⟩ := (toList?_eq_ok_iff htensor.addressable).mp h
  have hvalue := htensor.getElem?_offsetAt hcells h hbox
  cases hcells
  exact congrArg (Option.map Scalar.pattern) hvalue

/-- If an array of the same extents and order lists the elements of another one under a function, it
holds their images at the same coordinates. -/
theorem agree_of_toList?_map {target : DType} {others : Array (Scalar target)}
    {f : Scalar dtype → Scalar target} (hother : other.Valid)
    (hextents : tensor.layout.extents = other.layout.extents)
    (horder : tensor.layout.order = other.layout.order)
    (hcells : tensor.storage = ⟨dtype, cells⟩) (hothers : other.storage = ⟨target, others⟩)
    (h : tensor.toList? dtype = .ok values) (h' : other.toList? target = .ok (values.map f)) :
    tensor.layout.Agree other.layout (cells.map f) others where
  extents_eq := hextents
  getElem?_eq {coords} hbox := by
    have hbox' : InBox other.layout.extents coords := hextents ▸ hbox
    have hnumber : tensor.layout.order.index tensor.extents coords =
        other.layout.order.index other.extents coords := by
      rw [horder, extents, hextents, extents]
    rw [Array.getElem?_map, htensor.getElem?_offsetAt hcells h hbox,
      hother.getElem?_offsetAt hothers h' hbox', List.getElem?_map, hnumber]

/-- Values of the right type and number can be written. -/
theorem exists_write (hdtype : tensor.dtype = dtype) (hlength : values.length = tensor.size) :
    ∃ left, write values tensor = .ok () left := by
  obtain ⟨layout, ⟨held, cells⟩⟩ := tensor
  obtain rfl : held = dtype := htensor.dtype_eq.trans hdtype
  exact ⟨_, write_eq_ok_iff.mpr ⟨hlength, cells, rfl, rfl⟩⟩

/-- If each element has a cell of its own, the written values are the elements afterwards. -/
theorem toList?_of_write (hnodup : tensor.layout.offsets.Nodup)
    (h : write values tensor = .ok () left) : left.toList? dtype = .ok values := by
  have hleft := (htensor.of_write h).addressable
  obtain ⟨layout, ⟨held, cells⟩⟩ := tensor
  obtain ⟨hlength, cells', heq, rfl⟩ := write_eq_ok_iff.mp h
  cases heq
  refine (toList?_eq_ok_iff hleft).mpr
    ⟨_, rfl, (gather_scatter hnodup ?_ fun _ ↦ htensor.offset_lt).symm⟩
  rw [hlength, length_offsets, size]

/-- Two arrays of the same extents with the same list of elements hold the same element at
coordinates with the same number. -/
theorem patternAt?_of_toList?_eq (hother : other.Valid) (hextents : tensor.extents = other.extents)
    (h : tensor.toList? dtype = .ok values) (h' : other.toList? dtype = .ok values)
    {coords : List Nat} (hbox : InBox tensor.extents coords) :
    tensor.patternAt? coords =
      other.patternAt? (other.layout.order.coords tensor.extents
        (tensor.layout.order.index tensor.extents coords)) := by
  have hindex := tensor.layout.order.index_lt hbox
  have hplace : InBox other.extents (other.layout.order.coords tensor.extents
      (tensor.layout.order.index tensor.extents coords)) :=
    hextents ▸ Order.inBox_coords hindex
  rw [htensor.patternAt?_eq h hbox, hother.patternAt?_eq h' hplace, ← hextents,
    Order.index_coords hindex]

/-- If the orders agree as well, they hold the same elements at all coordinates. -/
theorem sameElements_of_toList?_eq (hother : other.Valid)
    (hextents : tensor.extents = other.extents) (hdtype : tensor.dtype = other.dtype)
    (horder : tensor.layout.order = other.layout.order)
    (h : tensor.toList? dtype = .ok values) (h' : other.toList? dtype = .ok values) :
    tensor.SameElements other where
  dtype_eq := hdtype
  extents_eq := hextents
  patternAt?_eq hbox := by
    rw [htensor.patternAt?_of_toList?_eq hother hextents h h' hbox, ← horder,
      Order.coords_index hbox]

end Valid

end Tensor

/-! ## Elements that share a cell -/

/-- Of the elements that lie at the offset, the `j`-th is the last one. -/
def Layout.LastAt (layout : Layout) (offset j : Nat) : Prop :=
  IsGreatest {i | i < layout.size ∧ layout.offsetOf i = offset} j

/-- Among the elements that share a cell with a given one, there is a last one. -/
theorem Layout.exists_lastAt {layout : Layout} {i : Nat} (hi : i < layout.size) :
    ∃ j, layout.LastAt (layout.offsetOf i) j :=
  BddAbove.exists_isGreatest_of_nonempty ⟨layout.size, fun _ hj ↦ hj.1.le⟩ ⟨i, hi, rfl⟩

namespace Tensor

variable {tensor : Tensor} {dtype : DType} {values : List (Scalar dtype)}
  {cells : Array (Scalar dtype)}

theorem write_refuses_length (h : values.length ≠ tensor.size) :
    write values tensor = .error (.shapeMismatch tensor.extents [values.length]) tensor :=
  if_pos h

theorem write_refuses_type (hlength : values.length = tensor.size)
    (h : dtype ≠ tensor.storage.dtype) :
    write values tensor = .error (.typeMismatch dtype tensor.storage.dtype) tensor := by
  rw [write, if_neg (not_not.mpr hlength), Storage.modify?, Storage.cells?, dif_neg h.symm]
  rfl

namespace Valid

variable (htensor : tensor.Valid) (hcells : tensor.storage = ⟨dtype, cells⟩)

include htensor hcells

/-- If the elements lie one behind the other, the list of the elements is the first part of the
buffer. -/
theorem toList?_of_isPacked (hpacked : tensor.layout.isPacked)
    (h : tensor.toList? dtype = .ok values) : values = cells.toList.take tensor.size := by
  obtain ⟨cells', heq, rfl⟩ := (toList?_eq_ok_iff htensor.addressable).mp h
  cases hcells.symm.trans heq
  rw [htensor.addressable.offsets_of_isPacked hpacked, gather_range, size]

/-- A cell where elements lie holds the value that was written for the last of them. -/
theorem getElem?_scatter_lastAt (hlength : values.length = tensor.size) {offset j : Nat}
    (hj : tensor.layout.LastAt offset j) :
    (scatter cells tensor.layout.offsets values)[offset]? = values[j]? := by
  obtain ⟨⟨hsize, hoffset⟩, hgreatest⟩ := hj
  have hplace := htensor.addressable.getElem?_offsets hsize
  have hlast : ∀ k, j < k → tensor.layout.offsets[k]? ≠ some offset := by
    intro k hk heq
    have hksize : k < tensor.layout.size := by
      have hlt := (List.getElem?_eq_some_iff.mp heq).1
      simpa [htensor.addressable.offsets_eq_map_range] using hlt
    rw [htensor.addressable.getElem?_offsets hksize, Option.some.injEq] at heq
    exact absurd (hgreatest ⟨hksize, heq⟩) (Nat.not_le.mpr hk)
  rw [hoffset] at hplace
  have hinside := htensor.offset_lt_cells hcells (List.mem_of_getElem? hplace)
  have hvalue : j < values.length := hlength ▸ hsize
  rw [List.getElem?_eq_getElem hvalue]
  exact getElem?_scatter_of_last hplace hlast (List.getElem?_eq_getElem hvalue) hinside

omit hcells in
/-- A cell without an element keeps what it holds. -/
theorem getElem?_scatter_of_free {offset : Nat}
    (h : ∀ i < tensor.size, tensor.layout.offsetOf i ≠ offset) :
    (scatter cells tensor.layout.offsets values)[offset]? = cells[offset]? := by
  refine getElem?_scatter_of_notMem fun hmem ↦ ?_
  rw [htensor.addressable.offsets_eq_map_range] at hmem
  obtain ⟨i, hi, hoffset⟩ := List.mem_map.mp hmem
  exact h i (List.mem_range.mp hi) hoffset

omit hcells in
/-- Writing the elements that an array lists changes nothing. -/
theorem write_toList? (h : tensor.toList? dtype = .ok values) :
    write values tensor = .ok () tensor := by
  obtain ⟨cells, hcells, rfl⟩ := (toList?_eq_ok_iff htensor.addressable).mp h
  obtain ⟨values, hvalues, hlength⟩ := htensor.exists_toList? (htensor.dtype_eq.symm.trans
    (congrArg Storage.dtype hcells))
  cases h.symm.trans hvalues
  refine write_eq_ok_iff.mpr ⟨hlength, cells, hcells, ?_⟩
  rw [scatter_gather fun _ ↦ htensor.offset_lt_cells hcells, ← hcells]

end Valid

/-- A write of the wrong number of values, or else of the wrong type, fails and leaves the array as
it is. Any other write keeps the layout and the cells without elements; an element is read back as
the value that was written for the last of the elements in its cell, whether the buffer is read
element by element or, without gaps, in one piece. If no two elements share a cell, the values are
read back as they were written. Writing the elements that an array lists changes nothing. -/
theorem write_outcome (htensor : tensor.Valid) (values : List (Scalar dtype)) :
    (values.length ≠ tensor.size →
      write values tensor = .error (.shapeMismatch tensor.extents [values.length]) tensor) ∧
    (values.length = tensor.size → dtype ≠ tensor.dtype →
      write values tensor = .error (.typeMismatch dtype tensor.dtype) tensor) ∧
    (values.length = tensor.size → dtype = tensor.dtype →
      ∃ cells written list, tensor.storage = ⟨dtype, cells⟩ ∧
        write values tensor = .ok () ⟨tensor.layout, ⟨dtype, written⟩⟩ ∧
        (Tensor.mk tensor.layout ⟨dtype, written⟩).toList? dtype = .ok list ∧
        written.size = cells.size ∧ list.length = tensor.size ∧
        (∀ i < tensor.size, ∃ j, tensor.layout.LastAt (tensor.layout.offsetOf i) j ∧
          written[tensor.layout.offsetOf i]? = values[j]? ∧ list[i]? = values[j]?) ∧
        (∀ offset, (∀ i < tensor.size, tensor.layout.offsetOf i ≠ offset) →
          written[offset]? = cells[offset]?) ∧
        (tensor.layout.isPacked → list = written.toList.take tensor.size) ∧
        (Set.InjOn tensor.layout.offsetOf {i | i < tensor.size} → list = values)) ∧
    ∃ list, tensor.toList? tensor.dtype = .ok list ∧ write list tensor = .ok () tensor := by
  refine ⟨write_refuses_length, ?_, ?_, ?_⟩
  · intro hlength hdtype
    rw [write_refuses_type hlength (htensor.dtype_eq ▸ hdtype), htensor.dtype_eq]
    rfl
  · intro hlength hdtype
    obtain ⟨left, hleft⟩ := htensor.exists_write hdtype.symm hlength
    have hvalid : left.Valid := htensor.of_write hleft
    obtain ⟨_, cells, hcells, rfl⟩ := write_eq_ok_iff.mp hleft
    obtain ⟨list, hlist, hcount⟩ := hvalid.exists_toList? hdtype.symm
    refine ⟨cells, _, list, hcells, hleft, hlist, size_scatter _ _ _, hcount, ?_,
      fun offset hfree ↦ htensor.getElem?_scatter_of_free hfree,
      fun hpacked ↦ hvalid.toList?_of_isPacked rfl hpacked hlist, ?_⟩
    · intro i hi
      obtain ⟨j, hj⟩ := exists_lastAt hi
      have hcell := htensor.getElem?_scatter_lastAt hcells hlength hj
      exact ⟨j, hj, hcell, (hvalid.getElem?_toList? rfl hlist hi).trans hcell⟩
    · intro hinjective
      have hnodup := htensor.addressable.nodup_offsets_iff.mpr hinjective
      exact Except.ok.inj (hlist.symm.trans (htensor.toList?_of_write hnodup hleft))
  · obtain ⟨list, hlist, -⟩ := htensor.exists_toList? rfl
    exact ⟨list, hlist, htensor.write_toList? hlist⟩

/-- A row that is there twice. -/
def sharedRow : Layout :=
  make [2, 2] [0, 2] .rowMajor .u8

/-- An array of the row, with a gap. -/
def sharedNines : Tensor :=
  ⟨sharedRow, ⟨.u8, Array.replicate 3 (.ofPattern .u8 9)⟩⟩

/-- Two rows that lie in the same two cells, which a third cell keeps apart: the second row is left,
and read back as both. -/
theorem write_outcome_shared :
    sharedNines.Valid ∧
      ∃ written list,
        write [.ofPattern .u8 1, .ofPattern .u8 2, .ofPattern .u8 3, .ofPattern .u8 4] sharedNines =
          .ok () ⟨sharedRow, ⟨.u8, written⟩⟩ ∧
        (Tensor.mk sharedRow ⟨.u8, written⟩).toList? .u8 = .ok list ∧
        list[1]? = some (.ofPattern .u8 4) ∧ written[1]? = some (.ofPattern .u8 9) := by
  have hlayout : strided [2, 2] [0, 2] .rowMajor .u8 = .ok sharedRow := rfl
  have hvalid : sharedNines.Valid := ⟨addressable_of_strided hlayout, rfl, by decide⟩
  have hlast : sharedRow.LastAt 2 3 := ⟨by decide, fun i hi ↦ Nat.le_of_lt_succ hi.1⟩
  obtain ⟨cells, written, list, hcells, hwrite, hlist, -, -, helements, hfree, -, -⟩ :=
    (write_outcome hvalid [.ofPattern .u8 1, .ofPattern .u8 2, .ofPattern .u8 3,
      .ofPattern .u8 4]).2.2.1 rfl rfl
  cases hcells
  obtain ⟨j, hj, -, helement⟩ := helements 1 (by decide)
  obtain rfl : j = 3 := hj.unique hlast
  exact ⟨hvalid, written, list, hwrite, hlist, helement, hfree 1 (by decide)⟩

end Tensor

end ArrayEngine
