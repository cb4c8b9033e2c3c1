import ArrayEngine.Proofs.Layout.AxisSplit
import ArrayEngine.Reduction.Catalogue

/-!
# The shape of a result

A result has one element for each choice of coordinates on the kept axes. Reduced axes that stay in
the shape with the extent one change neither the number of these elements (`count?_outputExtents`)
nor the order in which they are numbered (`index_outputExtents`).
-/

namespace ArrayEngine

namespace Layout

/-- The extents in which the marked axes have a single coordinate. -/
def shrink (mask : List Bool) (extents : List Nat) : List Nat :=
  List.zipWith (fun marked extent ↦ if marked then 1 else extent) mask extents

@[simp] theorem shrink_cons (marked : Bool) (mask : List Bool) (extent : Nat) (extents : List Nat) :
    shrink (marked :: mask) (extent :: extents) =
      (if marked then 1 else extent) :: shrink mask extents := rfl

/-- On the axes that are not marked, the extents stay as they are. -/
theorem select_shrink {mask : List Bool} {extents : List Nat} (h : mask.length = extents.length) :
    select mask false (shrink mask extents) = select mask false extents := by
  induction mask generalizing extents with
  | nil => rfl
  | cons marked mask ih =>
      cases extents with
      | nil => simp at h
      | cons extent extents =>
          have hrest := ih (Nat.succ.inj h)
          cases marked <;> simp [hrest]

/-- The only coordinate of a marked axis does not count for the number of an element. -/
theorem number_shrink {mask : List Bool} {extents coords : List Nat}
    (h : mask.length = extents.length) (hbox : InBox (shrink mask extents) coords) :
    number (shrink mask extents) coords =
      number (select mask false extents) (select mask false coords) := by
  induction mask generalizing extents coords with
  | nil => rfl
  | cons marked mask ih =>
      cases extents with
      | nil => simp at h
      | cons extent extents =>
          rw [shrink_cons] at hbox ⊢
          cases hbox with
          | @cons coord _ coords _ hcoord hbox =>
              have hrest := ih (Nat.succ.inj h) hbox
              cases marked with
              | true =>
                  have hzero : coord = 0 := by simpa using hcoord
                  simp [number, hzero, hrest]
              | false => simp [number, hrest]

/-- The axes with a single coordinate do not count for a checked product. -/
theorem foldlM_shrink {mask : List Bool} {extents : List Nat} (h : mask.length = extents.length)
    {first : Nat} (hfirst : first < Size.limit) :
    (shrink mask extents).foldlM Size.mul? first =
      (select mask false extents).foldlM Size.mul? first := by
  induction mask generalizing extents first with
  | nil => rfl
  | cons marked mask ih =>
      cases extents with
      | nil => simp at h
      | cons extent extents =>
          cases marked with
          | true =>
              have hunit : Size.mul? first 1 = some first :=
                Size.mul?_eq_some_iff.mpr ⟨by omega, Nat.mul_one first⟩
              rw [shrink_cons, if_pos rfl, List.foldlM_cons, hunit]
              simpa using ih (Nat.succ.inj h) hfirst
          | false =>
              rw [shrink_cons, select_cons, if_neg (by simp), if_pos rfl, List.foldlM_cons,
                List.foldlM_cons]
              cases hproduct : Size.mul? first extent with
              | none => rfl
              | some product =>
                  obtain ⟨hlimit, rfl⟩ := Size.mul?_eq_some_iff.mp hproduct
                  exact ih (Nat.succ.inj h) hlimit

end Layout

namespace Reduction

open Layout

/-- The coordinates on the kept axes of the element of a result at given coordinates. -/
def keptCoords (axes : List Nat) (keepDims : Bool) (coords : List Nat) : List Nat :=
  if keepDims then across axes coords else coords

variable {extents axes coords : List Nat} {keepDims : Bool}

theorem outputExtents_true :
    outputExtents extents axes true = shrink (listed axes extents.length) extents := by
  apply List.ext_getElem <;> simp [outputExtents, shrink, listed]

/-- If no axis is reduced, the shape stays as it is. -/
theorem outputExtents_nil (extents : List Nat) (keepDims : Bool) :
    outputExtents extents [] keepDims = extents := by
  cases keepDims <;> apply List.ext_getElem <;> simp [outputExtents]

/-- If all axes are reduced, no axis is left, or each has a single coordinate. -/
theorem outputExtents_range (extents : List Nat) (keepDims : Bool) :
    outputExtents extents (List.range extents.length) keepDims =
      if keepDims then List.replicate extents.length 1 else [] := by
  cases keepDims with
  | true =>
      apply List.ext_getElem
      · simp [outputExtents]
      · intro axis haxis _
        have haxis : axis < extents.length := by simpa [outputExtents] using haxis
        simp [outputExtents, haxis]
  | false =>
      simp only [outputExtents, Bool.false_eq_true, if_false, List.map_eq_nil_iff]
      refine List.filter_eq_nil_iff.mpr ?_
      rintro ⟨extent, axis⟩ hmem
      have haxis := (List.mem_zipIdx hmem).2.1
      simpa using haxis

/-- Results are counted by the kept axes. -/
theorem count?_outputExtents :
    Size.count? (outputExtents extents axes keepDims) = Size.count? (across axes extents) := by
  cases keepDims with
  | false => rfl
  | true =>
      rw [outputExtents_true, Size.count?, foldlM_shrink (by simp) (by decide),
        select_listed_false axes rfl]
      rfl

/-- There are as many results as choices of coordinates on the kept axes. -/
theorem volume_outputExtents (keepDims : Bool)
    (h : (Size.count? (across axes extents)).isSome) :
    volume (outputExtents extents axes keepDims) < Size.limit ∧
      volume (outputExtents extents axes keepDims) = volume (across axes extents) := by
  obtain ⟨count, hcount⟩ := Option.isSome_iff_exists.mp h
  obtain ⟨hlimit, hacross⟩ := eq_volume_of_count? hcount
  obtain ⟨_, hvolume⟩ := eq_volume_of_count? (count?_outputExtents.trans hcount)
  rw [← hvolume, ← hacross]
  exact ⟨hlimit, rfl⟩

/-- The coordinates of a result on the kept axes are coordinates of the array. -/
theorem inBox_keptCoords (h : InBox (outputExtents extents axes keepDims) coords) :
    InBox (across axes extents) (keptCoords axes keepDims coords) := by
  cases keepDims with
  | false => exact h
  | true =>
      rw [outputExtents_true] at h
      have hlength : coords.length = extents.length := by simpa [shrink] using h.length_eq
      have hselect := h.select (listed axes extents.length) false
      rw [select_shrink (by simp), select_listed_false axes rfl,
        select_listed_false axes hlength] at hselect
      exact hselect

/-- Results are numbered by their coordinates on the kept axes. -/
theorem index_outputExtents (h : InBox (outputExtents extents axes keepDims) coords) :
    Order.rowMajor.index (outputExtents extents axes keepDims) coords =
      Order.rowMajor.index (across axes extents) (keptCoords axes keepDims coords) := by
  cases keepDims with
  | false => rfl
  | true =>
      rw [outputExtents_true] at h ⊢
      have hlength : coords.length = extents.length := by simpa [shrink] using h.length_eq
      have hmask : (listed axes extents.length).length = extents.length := length_listed axes _
      have harrange : Order.rowMajor.arrange (shrink (listed axes extents.length) extents) =
          shrink (Order.rowMajor.arrange (listed axes extents.length))
            (Order.rowMajor.arrange extents) := Order.arrange_zipWith _ _ hmask
      rw [← Order.inBox_arrange .rowMajor, harrange] at h
      rw [Order.index, Order.index, harrange, number_shrink (by simp) h,
        ← arrange_select _ hmask, ← arrange_select _ (by simp [hlength]),
        select_listed_false axes rfl, select_listed_false axes hlength]
      rfl

end Reduction

end ArrayEngine
