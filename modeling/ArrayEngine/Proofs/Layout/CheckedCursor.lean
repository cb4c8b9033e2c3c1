import ArrayEngine.Proofs.Layout.Cursor

/-!
# When a cursor stays below `2 ^ 64`

At the end of an axis a cursor steps one stride too far before it takes the whole axis back. The
offsets that it yields are sizes, but this one need not be. A build that checks its arithmetic
panics there, and `collect_checked_cursor` says at which elements of an accepted layout it does so,
and that it does not if the required cells leave room for one more stride.
-/

namespace ArrayEngine

open Layout

/-! ## Passing the end of an axis -/

namespace Layout

/-- Behind faster axes, the elements at their first coordinates are those of the other axes. -/
theorem offsetAlong_append_mul {passed : List Axis} (hpos : 0 < volume (passed.map Axis.extent))
    (axes : List Axis) (i : Nat) :
    offsetAlong (passed ++ axes) (volume (passed.map Axis.extent) * i) = offsetAlong axes i := by
  induction passed generalizing i with
  | nil => rw [List.map_nil, volume_nil, Nat.one_mul, List.nil_append]
  | cons axis passed ih =>
      rw [List.map_cons, volume_cons] at hpos ⊢
      rw [Nat.mul_assoc, List.cons_append, offsetAlong_mul (Nat.pos_of_mul_pos_right hpos),
        ih (Nat.pos_of_mul_pos_left hpos)]

/-- The elements in front of the element `next` fill whole runs of some axes. At the end of the last
run of each such axis, a walk steps over the whole axis, from the first element of the run on;
these offsets are sizes. -/
def CarriesFit (walk : List Axis) (next : Nat) : Prop :=
  ∀ passed axis rest, walk = passed ++ axis :: rest →
    volume (passed.map Axis.extent) * axis.extent ∣ next →
      offsetAlong walk (next - volume (passed.map Axis.extent) * axis.extent) +
        axis.extent * axis.stride < Size.limit

/-- The fastest axis is passed first, and then the others by the elements along them. -/
theorem carriesFit_cons {axis : Axis} {rest : List Axis} {next : Nat} (hextent : 0 < axis.extent) :
    CarriesFit (axis :: rest) next ↔
      (axis.extent ∣ next →
        offsetAlong (axis :: rest) (next - axis.extent) + axis.extent * axis.stride < Size.limit ∧
          CarriesFit rest (next / axis.extent)) := by
  constructor
  · rintro hfit ⟨m, rfl⟩
    rw [Nat.mul_div_cancel_left m hextent]
    constructor
    · simpa using hfit [] axis rest rfl
    · rintro passed slower rest rfl hdvd
      have hslower := hfit (axis :: passed) slower rest rfl
      rw [List.map_cons, volume_cons, Nat.mul_assoc, Nat.mul_dvd_mul_iff_left hextent,
        ← Nat.mul_sub, offsetAlong_mul hextent] at hslower
      exact hslower hdvd
  · intro hfit passed slower slowest hwalk hdvd
    cases passed with
    | nil =>
        obtain ⟨rfl, rfl⟩ := List.cons.inj hwalk
        rw [List.map_nil, volume_nil, Nat.one_mul] at hdvd ⊢
        exact (hfit hdvd).1
    | cons first passed =>
        obtain ⟨rfl, rfl⟩ := List.cons.inj hwalk
        rw [List.map_cons, volume_cons, Nat.mul_assoc] at hdvd ⊢
        obtain ⟨m, rfl⟩ := dvd_of_mul_right_dvd hdvd
        obtain ⟨_, hrest⟩ := hfit (Nat.dvd_mul_right _ _)
        rw [Nat.mul_div_cancel_left m hextent] at hrest
        rw [← Nat.mul_sub, offsetAlong_mul hextent]
        exact hrest passed slower slowest rfl (Nat.dvd_of_mul_dvd_mul_left hextent hdvd)

/-- Within the fastest axis, no axis ends. -/
theorem carriesFit_of_lt {axis : Axis} {digit : Nat} (hdigit : digit + 1 < axis.extent)
    (rest : List Axis) (i : Nat) :
    CarriesFit (axis :: rest) (digit + 1 + axis.extent * i) := by
  refine (carriesFit_cons (by omega)).mpr fun hdvd ↦ ?_
  rw [Nat.dvd_add_left (Nat.dvd_mul_right _ _)] at hdvd
  exact absurd (Nat.le_of_dvd (by omega) hdvd) (by omega)

/-- At the end of the fastest axis, its first element is that of the other axes. -/
theorem carriesFit_mul {axis : Axis} (hextent : 0 < axis.extent) (rest : List Axis) (i : Nat) :
    CarriesFit (axis :: rest) (axis.extent * (i + 1)) ↔
      offsetAlong rest i + axis.extent * axis.stride < Size.limit ∧ CarriesFit rest (i + 1) := by
  rw [carriesFit_cons hextent, imp_iff_right (Nat.dvd_mul_right _ _),
    Nat.mul_div_cancel_left _ hextent, Nat.mul_succ, Nat.add_sub_cancel, offsetAlong_mul hextent]

end Layout

namespace Cursor

variable {axis : Axis} {walk : List Axis} {digit : Nat} {digits : List Nat}
  (hextent : axis.extent < Size.limit)

include hextent

/-- A step within the fastest axis adds its stride. -/
theorem advance_checked_of_lt {offset : Nat} (hdigit : digit + 1 < axis.extent)
    (hoffset : offset + axis.stride < Size.limit) :
    advance .checked (axis :: walk) (digit :: digits) offset =
      .ok ((digit + 1) :: digits, offset + axis.stride) := by
  have hnext := Arithmetic.checked.add_eq (show digit + 1 < Size.limit by omega)
  rw [advance, hnext, pure_bind, Arithmetic.checked.add_eq hoffset, pure_bind, if_pos hdigit]
  rfl

variable {left : Nat} (hdigit : digit + 1 = axis.extent)

include hdigit

/-- At the end of the fastest axis, the whole axis is stepped over, and the others advance. -/
theorem advance_checked_of_eq (hlimit : left + axis.extent * axis.stride < Size.limit) :
    advance .checked (axis :: walk) (digit :: digits) (digit * axis.stride + left) =
      (advance .checked walk digits left).map fun advanced ↦ (0 :: advanced.1, advanced.2) := by
  have hvalue : digit * axis.stride + left + axis.stride = left + axis.extent * axis.stride := by
    rw [← hdigit, Nat.succ_mul]
    omega
  have hnext := Arithmetic.checked.add_eq (show digit + 1 < Size.limit by omega)
  have hstepped := Arithmetic.checked.add_eq
    (show digit * axis.stride + left + axis.stride < Size.limit by omega)
  have hwhole := Arithmetic.checked.mul_eq
    (show axis.stride * axis.extent < Size.limit by rw [Nat.mul_comm]; omega)
  have hleft := Arithmetic.checked.sub_eq
    (Nat.le_add_left (axis.extent * axis.stride) left) hlimit
  rw [Nat.add_sub_cancel] at hleft
  rw [advance, hnext, pure_bind, hstepped, pure_bind, if_neg (by omega), hwhole, pure_bind, hvalue,
    Nat.mul_comm axis.stride, hleft, pure_bind]
  cases advance .checked walk digits left <;> rfl

/-- If the offset behind the whole axis is no size, there is a panic. -/
theorem advance_checked_eq_panic (hlimit : ¬left + axis.extent * axis.stride < Size.limit) :
    advance .checked (axis :: walk) (digit :: digits) (digit * axis.stride + left) =
      .error .sumOverflow := by
  have hvalue : digit * axis.stride + left + axis.stride = left + axis.extent * axis.stride := by
    rw [← hdigit, Nat.succ_mul]
    omega
  have hnext := Arithmetic.checked.add_eq (show digit + 1 < Size.limit by omega)
  have hstepped : Arithmetic.checked.add (digit * axis.stride + left) axis.stride =
      .error .sumOverflow :=
    if_neg (by omega)
  rw [advance, hnext, pure_bind, hstepped]
  rfl

omit hextent hdigit

/-- A step with checked arithmetic goes to the digits and the offset of the next element if the
offsets at the ends of axes fit, and panics otherwise. -/
theorem advance_checked {i : Nat} (hextents : ∀ axis ∈ walk, axis.extent < Size.limit)
    (hlimit : ∀ j < volume (walk.map Axis.extent), offsetAlong walk j < Size.limit)
    (hnext : i + 1 < volume (walk.map Axis.extent)) :
    CarriesFit walk (i + 1) ∧
        advance .checked walk (Layout.digits (walk.map Axis.extent) i) (offsetAlong walk i) =
          .ok (Layout.digits (walk.map Axis.extent) (i + 1), offsetAlong walk (i + 1)) ∨
      ¬CarriesFit walk (i + 1) ∧
        advance .checked walk (Layout.digits (walk.map Axis.extent) i) (offsetAlong walk i) =
          .error .sumOverflow := by
  induction walk generalizing i with
  | nil => simp at hnext
  | cons axis rest ih =>
      have hpos : 0 < axis.extent := Nat.pos_of_mul_pos_right (Nat.zero_lt_of_lt hnext)
      obtain ⟨digit, quotient, hdigit, rfl⟩ := exists_eq_add_mul hpos i
      have hextent : axis.extent < Size.limit := hextents axis (by simp)
      rw [List.map_cons, digits_add_mul hdigit, offsetAlong_add_mul hdigit]
      by_cases hlast : digit + 1 < axis.extent
      · have hsucc : digit + axis.extent * quotient + 1 = digit + 1 + axis.extent * quotient := by
          omega
        rw [hsucc] at hnext ⊢
        have hoffset := hlimit _ hnext
        rw [offsetAlong_add_mul hlast, Nat.succ_mul, Nat.add_right_comm] at hoffset
        refine .inl ⟨carriesFit_of_lt hlast rest quotient, ?_⟩
        rw [digits_add_mul hlast, offsetAlong_add_mul hlast, Nat.succ_mul,
          advance_checked_of_lt hextent hlast hoffset, Nat.add_right_comm]
      · have hend : digit + 1 = axis.extent := by omega
        have hsucc : digit + axis.extent * quotient + 1 = axis.extent * (quotient + 1) := by
          rw [Nat.mul_succ]
          omega
        rw [hsucc] at hnext ⊢
        rw [carriesFit_mul hpos, digits_mul hpos, offsetAlong_mul hpos]
        by_cases hfits : offsetAlong rest quotient + axis.extent * axis.stride < Size.limit
        · have hquotient : quotient + 1 < volume (rest.map Axis.extent) :=
            Nat.lt_of_mul_lt_mul_left hnext
          have hrest : ∀ j < volume (rest.map Axis.extent), offsetAlong rest j < Size.limit := by
            intro j hj
            rw [← offsetAlong_mul hpos]
            exact hlimit _ (Nat.mul_lt_mul_of_pos_left hj hpos)
          rw [advance_checked_of_eq hextent hend hfits, and_iff_right hfits]
          rcases ih (fun axis haxis ↦ hextents axis (by simp [haxis])) hrest hquotient with
            ⟨hcarries, hadvance⟩ | ⟨hcarries, hadvance⟩
          · exact .inl ⟨hcarries, by rw [hadvance]; rfl⟩
          · exact .inr ⟨hcarries, by rw [hadvance]; rfl⟩
        · exact .inr ⟨fun h ↦ hfits h.1, advance_checked_eq_panic hextent hend hfits⟩

variable (hextents : ∀ axis ∈ walk, axis.extent < Size.limit)
  (hlimit : ∀ j < volume (walk.map Axis.extent), offsetAlong walk j < Size.limit)

include hextents hlimit

/-- A checked step goes from one element to the next one exactly if the offsets at the ends of axes
fit. -/
theorem step_checked_before {i count : Nat} (more : Nat)
    (hnext : i + 1 < volume (walk.map Axis.extent)) :
    CarriesFit walk (i + 1) ∧
        (before walk i count).step .checked (more + 1) = .ok (before walk (i + 1) (more + 1)) ∨
      ¬CarriesFit walk (i + 1) ∧
        (before walk i count).step .checked (more + 1) = .error .sumOverflow := by
  refine (advance_checked hextents hlimit hnext).imp ?_ ?_
  · rintro ⟨hfit, hadvance⟩
    refine ⟨hfit, ?_⟩
    rw [step, if_neg (Nat.succ_ne_zero more)]
    simp only [before, hadvance]
    rfl
  · rintro ⟨hfit, hadvance⟩
    refine ⟨hfit, ?_⟩
    rw [step, if_neg (Nat.succ_ne_zero more)]
    simp only [before, hadvance]
    rfl

/-- A checked walk yields the offsets of consecutive elements if, at each element but the first, the
offsets at the ends of axes fit, and panics otherwise. -/
theorem collect_checked_before {i count : Nat}
    (hstop : i + count ≤ volume (walk.map Axis.extent)) :
    (∀ next, i < next → next < i + count → CarriesFit walk next) ∧
        (before walk i count).collect .checked =
          .ok ((List.range' i count).map (offsetAlong walk)) ∨
      (∃ next, i < next ∧ next < i + count ∧ ¬CarriesFit walk next) ∧
        (before walk i count).collect .checked = .error .sumOverflow := by
  -- The induction is on the number of elements to come; behind the last one there is no step.
  induction count generalizing i with
  | zero => exact .inl ⟨fun next _ _ ↦ by omega, rfl⟩
  | succ more ih =>
      cases more with
      | zero => exact .inl ⟨fun next _ _ ↦ by omega, rfl⟩
      | succ more =>
          have hcollect : (before walk i (more + 2)).collect .checked =
              (before walk i (more + 2)).step .checked (more + 1) >>= fun rest ↦
                take .checked (more + 1) rest >>= fun offsets ↦
                  pure (offsetAlong walk i :: offsets) := by
            show ((_ >>= _) >>= _) = _
            rw [bind_assoc]
            rfl
          have hnext : i + 1 < volume (walk.map Axis.extent) := by omega
          rw [hcollect]
          rcases step_checked_before hextents hlimit more hnext with ⟨hfit, hstep⟩ | ⟨hfit, hstep⟩
          · rw [hstep, List.range'_succ, List.map_cons]
            rcases ih (i := i + 1) (by omega) with ⟨hfits, hrest⟩ | ⟨⟨next, hi, hlt, hover⟩, hrest⟩
            · refine .inl ⟨fun next hi hlt ↦ ?_, ?_⟩
              · rcases Nat.eq_or_lt_of_le hi with rfl | hlater
                · exact hfit
                · exact hfits next hlater (by omega)
              · show (collect .checked (before walk (i + 1) (more + 1)) >>= _) = _
                rw [hrest]
                rfl
            · refine .inr ⟨⟨next, by omega, by omega, hover⟩, ?_⟩
              show (collect .checked (before walk (i + 1) (more + 1)) >>= _) = _
              rw [hrest]
              rfl
          · rw [hstep]
            exact .inr ⟨⟨i + 1, by omega, by omega, hfit⟩, rfl⟩

end Cursor

/-! ## Accepted layouts -/

namespace Layout

variable {layout : Layout}

/-- If there are slower axes, stepping over a whole axis leads at most one stride behind the last
offset of an element. -/
theorem Addressable.carriesFit (hlayout : layout.Addressable)
    (hroom : ∀ passed axis rest, layout.walk = passed ++ axis :: rest →
      1 < volume (rest.map Axis.extent) → layout.requiredCells + axis.stride ≤ Size.limit)
    {next : Nat} (hpos : 0 < next) (hnext : next < layout.size) :
    CarriesFit layout.walk next := by
  rintro passed axis rest hwalk ⟨runs, rfl⟩
  have hsize := hlayout.volume_walk
  rw [hwalk, List.map_append, List.map_cons, volume_append, volume_cons, ← Nat.mul_assoc] at hsize
  rw [← hsize] at hnext
  have hrun := Nat.pos_of_mul_pos_right hpos
  have hpassed := Nat.pos_of_mul_pos_right hrun
  have hextent := Nat.pos_of_mul_pos_left hrun
  obtain ⟨before, rfl⟩ : ∃ before, runs = before + 1 :=
    ⟨runs - 1, by have := Nat.pos_of_mul_pos_left hpos; omega⟩
  have hslower : before + 1 < volume (rest.map Axis.extent) := Nat.lt_of_mul_lt_mul_left hnext
  have hcells := hroom passed axis rest hwalk (by omega)
  -- The last element of the run that was met along this axis, one stride before the offset in
  -- question.
  have hlast : volume (passed.map Axis.extent) * (axis.extent - 1 + axis.extent * before) <
      layout.size := by
    have hmet : axis.extent - 1 + axis.extent * before < axis.extent * (before + 1) := by
      rw [Nat.mul_succ]
      omega
    have hle := Nat.mul_lt_mul_of_pos_left hmet hpassed
    rw [← Nat.mul_assoc] at hle
    omega
  have hbox : InBox layout.extents (layout.order.coords layout.extents _) :=
    Order.inBox_coords hlast
  have hcell := hlayout.offsetAt_lt_requiredCells hbox
  rw [← offsetAlong_walk hlayout.length_strides, hwalk, offsetAlong_append_mul hpassed,
    offsetAlong_add_mul (by omega)] at hcell
  have hwhole : (axis.extent - 1) * axis.stride + axis.stride = axis.extent * axis.stride := by
    rw [← Nat.succ_mul, Nat.succ_eq_add_one, Nat.sub_add_cancel hextent]
  rw [Nat.mul_succ, Nat.add_sub_cancel, Nat.mul_assoc, hwalk, offsetAlong_append_mul hpassed,
    offsetAlong_mul hextent]
  omega

/-- A walk with checked arithmetic yields what the cursor does, or it panics, if it passes the end
of an axis at an offset that is no size. -/
theorem Addressable.collect_checked (hlayout : layout.Addressable) {start count : Nat}
    (hstop : start + count ≤ layout.size) :
    (∀ next, start < next → next < start + count → CarriesFit layout.walk next) ∧
        ((Indexer.ofLayout layout).cursor start count).collect .checked =
          .ok ((Indexer.ofLayout layout).cursor start count).toList ∨
      (∃ next, start < next ∧ next < start + count ∧ ¬CarriesFit layout.walk next) ∧
        ((Indexer.ofLayout layout).cursor start count).collect .checked = .error .sumOverflow := by
  rcases Nat.eq_zero_or_pos count with rfl | hcount
  · exact .inl ⟨fun next _ _ ↦ by omega, rfl⟩
  · have hextents := hlayout.extent_lt_limit (by omega)
    have hvolume := hlayout.volume_walk
    rw [hlayout.cursor_eq hcount hstop,
      Cursor.toList_before hextents hlayout.offsetAlong_walk_lt (by omega)]
    exact Cursor.collect_checked_before hextents hlayout.offsetAlong_walk_lt (by omega)

/-- Walking through an accepted layout with checked arithmetic yields what the cursor yields modulo
`2 ^ 64`, or ends in a panic. It panics exactly if, at the end of an axis, stepping over the whole
axis leads to an offset that is no size. That cannot happen if, for every axis with slower ones, the
required cells leave room for one more stride. -/
theorem collect_checked_cursor {extents strides : List Nat} {order : Order} {dtype : DType}
    (hlayout : strided extents strides order dtype = .ok layout) {start count : Nat}
    (hstop : start + count ≤ layout.size) :
    (((Indexer.ofLayout layout).cursor start count).collect .checked =
          .ok ((Indexer.ofLayout layout).cursor start count).toList ∨
        ((Indexer.ofLayout layout).cursor start count).collect .checked = .error .sumOverflow) ∧
      (((Indexer.ofLayout layout).cursor start count).collect .checked = .error .sumOverflow ↔
        ∃ next, start < next ∧ next < start + count ∧ ¬CarriesFit layout.walk next) ∧
      ((∀ passed axis rest, layout.walk = passed ++ axis :: rest →
          1 < volume (rest.map Axis.extent) → layout.requiredCells + axis.stride ≤ Size.limit) →
        ((Indexer.ofLayout layout).cursor start count).collect .checked =
          .ok ((Indexer.ofLayout layout).cursor start count).toList) := by
  have haddressable := addressable_of_strided hlayout
  rcases haddressable.collect_checked hstop with ⟨hfits, hlist⟩ | ⟨hover, hpanic⟩
  · refine ⟨.inl hlist, ⟨fun hpanic ↦ ?_, ?_⟩, fun _ ↦ hlist⟩
    · rw [hlist] at hpanic
      cases hpanic
    · rintro ⟨next, hstart, hlt, hfit⟩
      exact absurd (hfits next hstart hlt) hfit
  · refine ⟨.inr hpanic, iff_of_true hpanic hover, fun hroom ↦ ?_⟩
    obtain ⟨next, hstart, hlt, hfit⟩ := hover
    exact absurd (haddressable.carriesFit hroom (by omega) (by omega)) hfit

/-- A column-major array whose slowest axis leaves no room for another one of its strides, but for
one of the fastest axis. -/
def narrowLayout : Layout := make [2, 2] [1, 2 ^ 64 - 8] .columnMajor .i32

/-- From the middle of it. -/
theorem collect_checked_cursor_narrow :
    strided [2, 2] [1, 2 ^ 64 - 8] .columnMajor .i32 = .ok narrowLayout ∧
      1 + 3 ≤ narrowLayout.size ∧
      ((Indexer.ofLayout narrowLayout).cursor 1 3).collect .checked =
        .ok [1, 2 ^ 64 - 8, 2 ^ 64 - 7] := by
  have hlayout : strided [2, 2] [1, 2 ^ 64 - 8] .columnMajor .i32 = .ok narrowLayout := rfl
  have hstop : 1 + 3 ≤ narrowLayout.size := by decide
  obtain ⟨_, _, hroom⟩ := collect_checked_cursor hlayout hstop
  refine ⟨hlayout, hstop, hroom ?_⟩
  intro passed axis rest hwalk hslower
  have hwalk : [⟨2, 1⟩, ⟨2, 2 ^ 64 - 8⟩] = passed ++ axis :: rest := hwalk
  cases passed with
  | nil =>
      obtain ⟨rfl, rfl⟩ := List.cons.inj hwalk
      decide
  | cons first passed =>
      obtain ⟨_, hwalk⟩ := List.cons.inj hwalk
      rcases List.singleton_eq_append_iff.mp hwalk with ⟨_, hrest⟩ | ⟨_, hrest⟩
      · obtain ⟨_, rfl⟩ := List.cons.inj hrest
        exact absurd hslower (Nat.lt_irrefl 1)
      · cases hrest

/-- A column-major array of which the largest offset is `2 ^ 63 + 1`. -/
def wideLayout : Layout := make [2, 2] [2 ^ 63, 1] .columnMajor .f32

/-- Behind its first column the walk forms `2 ^ 63 + 2 ^ 63`, although no element lies behind
`2 ^ 63 + 1`. -/
theorem collect_checked_cursor_overflow :
    strided [2, 2] [2 ^ 63, 1] .columnMajor .f32 = .ok wideLayout ∧ 0 + 4 ≤ wideLayout.size ∧
      wideLayout.requiredCells = 2 ^ 63 + 2 ∧
      ((Indexer.ofLayout wideLayout).cursor 0 4).toList = [0, 2 ^ 63, 1, 2 ^ 63 + 1] ∧
      ((Indexer.ofLayout wideLayout).cursor 0 4).collect .checked = .error .sumOverflow :=
  ⟨rfl, by decide, rfl, rfl, rfl⟩

end Layout

end ArrayEngine
