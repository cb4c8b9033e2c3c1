import ArrayEngine.Layout.Cursor
import ArrayEngine.Proofs.Layout.Addressable
import Mathlib.Data.Nat.ModEq

/-!
# What a cursor yields

A cursor finds the digits of its first element by division and counts from there on, with carries
and with offsets modulo `2 ^ 64`. `Cursor.advance_digits` says that one step of the count goes from
the digits and the offset of an element to those of the next one; `Addressable.toList_cursor` says
that the whole walk yields the offsets of consecutive elements. `cursor_yields` follows the walk of
an accepted layout: the offsets are those that the indexer finds by division, one after another, and
at every place the cursor knows how many of them are still to come.
-/

namespace ArrayEngine

/-! ## Wrapped arithmetic -/

namespace Size

theorem limit_eq : limit = 2 ^ 64 := rfl

theorem addWrapped_modEq (a b : Nat) : addWrapped a b ≡ a + b [MOD limit] :=
  Nat.mod_modEq (a + b) limit

theorem subWrapped_add_modEq (a b : Nat) : subWrapped a b + b ≡ a [MOD limit] := by
  simp only [Nat.ModEq, subWrapped, limit_eq]
  omega

/-- A product may be reduced before it is subtracted. -/
theorem subWrapped_mulWrapped (a b c : Nat) :
    subWrapped a (mulWrapped b c) = subWrapped a (b * c) := by
  rw [subWrapped, subWrapped, mulWrapped, Nat.mod_mod]

end Size

open Layout

namespace Cursor

/-- The cursor behind its next `count` elements, if there are so many. -/
def skip? : Nat → Cursor → Option Cursor
  | 0, cursor => some cursor
  | count + 1, cursor =>
      (Id.run (cursor.next? .wrapping)).bind fun (_, rest) ↦ skip? count rest

/-- On the fastest axis the cursor steps on, or it takes the whole axis back and the other axes
advance. -/
theorem advance_wrapping_cons (axis : Axis) (walk : List Axis) (digit : Nat) (digits : List Nat)
    (offset : Nat) :
    Id.run (advance .wrapping (axis :: walk) (digit :: digits) offset) =
      if Size.addWrapped digit 1 < axis.extent then
        (Size.addWrapped digit 1 :: digits, Size.addWrapped offset axis.stride)
      else
        let advanced := Id.run (advance .wrapping walk digits
          (Size.subWrapped (Size.addWrapped offset axis.stride) (axis.stride * axis.extent)))
        (0 :: advanced.1, advanced.2) := by
  rw [← Size.subWrapped_mulWrapped]
  show Id.run (ite (Size.addWrapped digit 1 < axis.extent) _ _) = _
  by_cases hlast : Size.addWrapped digit 1 < axis.extent
  · rw [if_pos hlast, if_pos hlast]
    rfl
  · rw [if_neg hlast, if_neg hlast]
    rfl

/-- One step of the count goes to the digits and the offset of the next element. The offset may be
shifted by a fixed amount, as it is in the axes behind a carry. -/
theorem advance_digits {walk : List Axis} {i offset : Nat} (shift : Nat)
    (hextents : ∀ axis ∈ walk, axis.extent < Size.limit)
    (hnext : i + 1 < volume (walk.map Axis.extent))
    (hoffset : offset ≡ shift + offsetAlong walk i [MOD Size.limit]) :
    Id.run (advance .wrapping walk (Layout.digits (walk.map Axis.extent) i) offset) =
      (Layout.digits (walk.map Axis.extent) (i + 1),
        (shift + offsetAlong walk (i + 1)) % Size.limit) := by
  induction walk generalizing i offset with
  | nil => simp at hnext
  | cons axis rest ih =>
      have hpos : 0 < axis.extent := Nat.pos_of_mul_pos_right (Nat.zero_lt_of_lt hnext)
      obtain ⟨digit, quotient, hdigit, rfl⟩ := exists_eq_add_mul hpos i
      have hextent : axis.extent < Size.limit := hextents axis (by simp)
      have hsize : Size.addWrapped digit 1 = digit + 1 := Nat.mod_eq_of_lt (by omega)
      rw [offsetAlong_add_mul hdigit] at hoffset
      rw [List.map_cons, digits_add_mul hdigit, advance_wrapping_cons, hsize]
      have hstepped := (Size.addWrapped_modEq offset axis.stride).trans (hoffset.add_right _)
      by_cases hlast : digit + 1 < axis.extent
      · have hsucc : digit + axis.extent * quotient + 1 = digit + 1 + axis.extent * quotient := by
          omega
        rw [if_pos hlast, hsucc, digits_add_mul hlast, offsetAlong_add_mul hlast]
        have hvalue : shift + ((digit + 1) * axis.stride + offsetAlong rest quotient) =
            shift + (digit * axis.stride + offsetAlong rest quotient) + axis.stride := by ring
        rw [hvalue, ← hstepped, Size.addWrapped, Nat.mod_mod]
      · -- The digit starts anew, and taking its whole axis back leaves the other axes' offset.
        have hsucc : digit + axis.extent * quotient + 1 = axis.extent * (quotient + 1) := by
          rw [Nat.mul_succ]
          omega
        have hquotient : quotient + 1 < volume (rest.map Axis.extent) := by
          rw [hsucc, List.map_cons, volume_cons] at hnext
          exact Nat.lt_of_mul_lt_mul_left hnext
        have hcarried : Size.subWrapped (Size.addWrapped offset axis.stride)
            (axis.stride * axis.extent) ≡ shift + offsetAlong rest quotient [MOD Size.limit] := by
          have hwhole := (Size.subWrapped_add_modEq _ (axis.stride * axis.extent)).trans hstepped
          have hextent : axis.extent = digit + 1 := by omega
          have hvalue : shift + (digit * axis.stride + offsetAlong rest quotient) + axis.stride =
              shift + offsetAlong rest quotient + axis.stride * axis.extent := by
            rw [hextent]
            ring
          rw [hvalue] at hwhole
          exact Nat.ModEq.add_right_cancel' _ hwhole
        rw [if_neg hlast, hsucc, digits_mul hpos, offsetAlong_mul hpos,
          ih (fun other hother ↦ hextents other (by simp [hother])) hquotient hcarried]

/-- The cursor in front of the `i`-th element on these axes, with `count` elements to come. -/
def before (walk : List Axis) (i count : Nat) : Cursor :=
  ⟨walk, Layout.digits (walk.map Axis.extent) i, offsetAlong walk i, count⟩

variable {walk : List Axis} (hextents : ∀ axis ∈ walk, axis.extent < Size.limit)
  (hlimit : ∀ i < volume (walk.map Axis.extent), offsetAlong walk i < Size.limit)

include hextents hlimit

/-- A step goes from one element to the next one, as long as there is a next one. -/
theorem step_before {i count : Nat} (more : Nat)
    (hnext : i + 1 < volume (walk.map Axis.extent)) :
    Id.run ((before walk i count).step .wrapping (more + 1)) = before walk (i + 1) (more + 1) := by
  have hoffset : offsetAlong walk i ≡ 0 + offsetAlong walk i [MOD Size.limit] := by
    rw [Nat.zero_add]
  have hadvance := advance_digits 0 hextents hnext hoffset
  rw [Nat.zero_add, Nat.mod_eq_of_lt (hlimit _ hnext)] at hadvance
  show Cursor.mk walk (Id.run (advance .wrapping _ _ _)).1 (Id.run (advance .wrapping _ _ _)).2
    (more + 1) = _
  rw [before, hadvance, before]

/-- From an element on, a walk yields the offsets of consecutive elements. -/
theorem toList_before {i count : Nat} (hstop : i + count ≤ volume (walk.map Axis.extent)) :
    (before walk i count).toList = (List.range' i count).map (offsetAlong walk) := by
  -- The induction is on the number of elements to come; the last one is yielded without a step.
  induction count generalizing i with
  | zero => rfl
  | succ more ih =>
      have hrest : Id.run (take .wrapping more
          (Id.run ((before walk i (more + 1)).step .wrapping more))) =
            (List.range' (i + 1) more).map (offsetAlong walk) := by
        cases more with
        | zero => rfl
        | succ more =>
            rw [step_before hextents hlimit more (by omega)]
            exact ih (by omega)
      rw [List.range'_succ, List.map_cons, ← hrest]
      rfl

/-- Behind some elements, the cursor stands in front of the next one if there is one, and knows how
many are still to come. -/
theorem skip?_before {i count skipped : Nat} (hstop : i + count ≤ volume (walk.map Axis.extent))
    (hskipped : skipped ≤ count) :
    ∃ rest, (before walk i count).skip? skipped = some rest ∧ rest.remaining = count - skipped ∧
      (skipped < count → rest = before walk (i + skipped) (count - skipped)) := by
  induction skipped generalizing i count with
  | zero => exact ⟨before walk i count, rfl, rfl, fun _ ↦ rfl⟩
  | succ skipped ih =>
      obtain ⟨more, rfl⟩ : ∃ more, count = more + 1 := ⟨count - 1, by omega⟩
      show ∃ rest, (Id.run ((before walk i (more + 1)).step .wrapping more)).skip? skipped =
        some rest ∧ _
      cases more with
      | zero =>
          -- The last element was skipped: the cursor stays at it, with nothing to come.
          obtain rfl : skipped = 0 := by omega
          exact ⟨_, rfl, remaining_step _ _, fun hlt ↦ absurd hlt (Nat.lt_irrefl _)⟩
      | succ more =>
          rw [step_before hextents hlimit more (by omega)]
          have hstop' : i + 1 + (more + 1) ≤ volume (walk.map Axis.extent) := by omega
          obtain ⟨rest, hrest, hremaining, hnext⟩ := ih hstop' (by omega)
          refine ⟨rest, hrest, by omega, ?_⟩
          intro hlt
          rw [hnext (by omega)]
          congr 1 <;> omega

end Cursor

namespace Layout

variable {layout : Layout}

/-- If there are elements, every extent is a size. -/
theorem Addressable.extent_lt_limit (hlayout : layout.Addressable) (hpos : 0 < layout.size) :
    ∀ axis ∈ layout.walk, axis.extent < Size.limit :=
  fun _ haxis ↦ (hlayout.extent_le_size hpos haxis).trans_lt hlayout.size_lt

/-- The cursor of an indexer starts in front of its first element. -/
theorem Addressable.cursor_eq (hlayout : layout.Addressable) {start count : Nat}
    (hcount : 0 < count) (hstop : start + count ≤ layout.size) :
    (Indexer.ofLayout layout).cursor start count = Cursor.before layout.walk start count := by
  have hstart : start < layout.size := by omega
  rw [Indexer.cursor, if_neg (Nat.ne_of_gt hcount), hlayout.offsetOf_ofLayout hstart,
    hlayout.offsetOf_eq hstart, ← offsetAlong_walk hlayout.length_strides]
  rfl

/-- The cursor of an indexer yields the offsets of consecutive elements. -/
theorem Addressable.toList_cursor (hlayout : layout.Addressable) {start count : Nat}
    (hstop : start + count ≤ layout.size) :
    ((Indexer.ofLayout layout).cursor start count).toList =
      (List.range' start count).map layout.offsetOf := by
  have hvolume := hlayout.volume_walk
  rcases Nat.eq_zero_or_pos count with rfl | hcount
  · rfl
  · rw [hlayout.cursor_eq hcount hstop,
      Cursor.toList_before (hlayout.extent_lt_limit (by omega)) hlayout.offsetAlong_walk_lt
        (by omega)]
    apply List.map_congr_left
    intro i hi
    have hmem := List.mem_range'_1.mp hi
    exact hlayout.offsetAlong_walk_eq (by omega)

/-- Behind some elements, the cursor of an indexer knows how many are still to come, and the next
one has the offset that the indexer finds for it. -/
theorem Addressable.skip?_cursor (hlayout : layout.Addressable) {start count skipped : Nat}
    (hstop : start + count ≤ layout.size) (hskipped : skipped ≤ count) :
    ∃ rest, ((Indexer.ofLayout layout).cursor start count).skip? skipped = some rest ∧
      rest.remaining = count - skipped ∧
      (Id.run (rest.next? .wrapping)).map Prod.fst =
        if skipped < count then some ((Indexer.ofLayout layout).offsetOf (start + skipped))
        else none := by
  have hvolume := hlayout.volume_walk
  rcases Nat.eq_zero_or_pos count with rfl | hcount
  · obtain rfl : skipped = 0 := by omega
    exact ⟨_, rfl, rfl, rfl⟩
  · rw [hlayout.cursor_eq hcount hstop]
    rw [← hvolume] at hstop
    obtain ⟨rest, hrest, hremaining, hnext⟩ :=
      Cursor.skip?_before (hlayout.extent_lt_limit (by omega)) hlayout.offsetAlong_walk_lt hstop
        hskipped
    refine ⟨rest, hrest, hremaining, ?_⟩
    by_cases hlast : skipped < count
    · obtain ⟨more, hmore⟩ : ∃ more, count - skipped = more + 1 := ⟨count - skipped - 1, by omega⟩
      have hi : start + skipped < layout.size := by omega
      rw [if_pos hlast, hnext hlast, hmore, hlayout.offsetOf_ofLayout hi,
        ← hlayout.offsetAlong_walk_eq hi]
      rfl
    · have hzero : rest.remaining = 0 := by omega
      rw [if_neg hlast, Cursor.next?, hzero]
      rfl

/-- There are as many offsets as elements. -/
@[simp] theorem length_offsets (layout : Layout) : layout.offsets.length = layout.size := by
  rw [offsets, Cursor.length_toList, Indexer.cursor]
  split
  · rename_i hzero
    exact hzero.symm
  · rfl

/-- The offsets of a layout are those of the element numbers in ascending order. -/
theorem Addressable.offsets_eq_map_range (hlayout : layout.Addressable) :
    layout.offsets = (List.range layout.size).map layout.offsetOf := by
  rw [offsets, hlayout.toList_cursor (by omega), List.range_eq_range']

theorem Addressable.getElem?_offsets (hlayout : layout.Addressable) {i : Nat}
    (hi : i < layout.size) : layout.offsets[i]? = some (layout.offsetOf i) := by
  rw [hlayout.offsets_eq_map_range, List.getElem?_map, List.getElem?_range hi, Option.map_some]

/-- The offsets differ exactly if no two elements share one. -/
theorem Addressable.nodup_offsets_iff (hlayout : layout.Addressable) :
    layout.offsets.Nodup ↔ Set.InjOn layout.offsetOf {i | i < layout.size} := by
  rw [hlayout.offsets_eq_map_range, List.nodup_map_iff_inj_on List.nodup_range]
  simp only [List.mem_range]
  exact ⟨fun h i hi j hj ↦ h i hi j hj, fun h i hi j hj ↦ h hi hj⟩

/-- The offsets of a layout are those of all coordinates, in the order of the elements. -/
theorem Addressable.offsets_eq (hlayout : layout.Addressable) :
    layout.offsets = layout.coordinates.map layout.offsetAt := by
  rw [hlayout.offsets_eq_map_range, coordinates, Order.coordinates, List.map_map]
  exact List.map_congr_left fun i hi ↦ hlayout.offsetOf_eq (List.mem_range.mp hi)

/-- The offsets of a layout without gaps are the element numbers. -/
theorem offsets_packed {extents : List Nat} (h : volume extents < Size.limit) (order : Order)
    (dtype : DType) : (packed extents order dtype).offsets = List.range (volume extents) := by
  rw [(addressable_packed h order dtype).offsets_eq_map_range]
  conv_rhs => rw [← List.map_id (List.range _)]
  exact List.map_congr_left fun i hi ↦ offsetOf_packed h (List.mem_range.mp hi)

theorem nodup_offsets_packed {extents : List Nat} (h : volume extents < Size.limit) (order : Order)
    (dtype : DType) : (packed extents order dtype).offsets.Nodup := by
  rw [offsets_packed h]
  exact List.nodup_range

/-- If the elements lie one behind the other, their offsets are their numbers. -/
theorem Addressable.offsets_of_isPacked (hlayout : layout.Addressable) (h : layout.isPacked) :
    layout.offsets = List.range layout.size := by
  have huniform : layout.uniformStride = some 1 := by simpa [isPacked] using h
  rw [hlayout.offsets_eq_map_range]
  conv_rhs => rw [← List.map_id (List.range _)]
  apply List.map_congr_left
  intro i _
  rw [offsetOf, huniform]
  exact Nat.mul_one i

/-- Of an accepted layout, a cursor yields as many offsets as asked for: those that the indexer
finds for consecutive elements, although the cursor divides only for the first one and counts modulo
`2 ^ 64` from there on. Behind some of them it says exactly how many are still to come. -/
theorem cursor_yields {extents strides : List Nat} {order : Order} {dtype : DType}
    (hlayout : strided extents strides order dtype = .ok layout) {start count : Nat}
    (hstop : start + count ≤ layout.size) :
    ((Indexer.ofLayout layout).cursor start count).toList.length = count ∧
      ((Indexer.ofLayout layout).cursor start count).toList =
        (List.range' start count).map (Indexer.ofLayout layout).offsetOf ∧
      ∀ skipped ≤ count, ∃ rest,
        ((Indexer.ofLayout layout).cursor start count).skip? skipped = some rest ∧
        rest.bounds = (count - skipped, some (count - skipped)) ∧
        (Id.run (rest.next? .wrapping)).map Prod.fst =
          if skipped < count then some ((Indexer.ofLayout layout).offsetOf (start + skipped))
          else none := by
  have haddressable := addressable_of_strided hlayout
  have hoffsets := haddressable.toList_cursor hstop
  refine ⟨by simp [hoffsets], ?_, ?_⟩
  · rw [hoffsets]
    apply List.map_congr_left
    intro i hi
    have hmem := List.mem_range'_1.mp hi
    exact (haddressable.offsetOf_ofLayout (by omega)).symm
  · intro skipped hskipped
    obtain ⟨rest, hrest, hremaining, hnext⟩ := haddressable.skip?_cursor hstop hskipped
    exact ⟨rest, hrest, by rw [Cursor.bounds, hremaining], hnext⟩

/-- Columns that are half of all sizes apart. -/
def distantColumns : Layout :=
  make [2, 3, 1] [2 ^ 63, 5, 7] .columnMajor .i32

/-- From the middle of a column-major array, with a stride by which the running offset passes
`2 ^ 64` at the carry. -/
theorem cursor_yields_wrapped :
    strided [2, 3, 1] [2 ^ 63, 5, 7] .columnMajor .i32 = .ok distantColumns ∧
      1 + 4 ≤ distantColumns.size ∧
      ((Indexer.ofLayout distantColumns).cursor 1 4).toList = [2 ^ 63, 5, 2 ^ 63 + 5, 10] := by
  have hlayout : strided [2, 3, 1] [2 ^ 63, 5, 7] .columnMajor .i32 = .ok distantColumns := rfl
  have hstop : 1 + 4 ≤ distantColumns.size := by decide
  refine ⟨hlayout, hstop, ?_⟩
  rw [(cursor_yields hlayout hstop).2.1]
  rfl

end Layout

end ArrayEngine
