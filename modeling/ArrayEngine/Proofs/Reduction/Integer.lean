import ArrayEngine.Proofs.Reduction.Slices
import ArrayEngine.Proofs.Scalar
import ArrayEngine.Reduction.Catalogue
import Mathlib.Algebra.BigOperators.Group.List.Basic
import Mathlib.Data.List.Induction
import Mathlib.Order.Bounds.Basic

/-!
# Exact integer reductions

`Reduction.IsExact` says which integer a reduction of integers has to give. The strategies with an
integer accumulator give it (`isExact_fold`), one element after another, and since their
accumulators can be joined (`joins_intStrategy`) neither the workers nor the parts they get have an
influence on the result.
-/

namespace ArrayEngine

/-! ## Results -/

/-- The integer of the type that agrees with an exact result modulo the width. -/
structure WrapsTo (dtype : DType) (exact result : Int) : Prop where
  leastValue_le : Scalar.leastValue dtype ≤ result
  le_greatestValue : result ≤ Scalar.greatestValue dtype
  modEq : result ≡ exact [ZMOD 2 ^ dtype.width]

/-- The largest of some integers, or a given one if there are none. -/
def IsLargest (default : Int) (values : List Int) (result : Int) : Prop :=
  if values = [] then result = default else IsGreatest {value | value ∈ values} result

/-- The smallest of some integers, or a given one if there are none. -/
def IsSmallest (default : Int) (values : List Int) (result : Int) : Prop :=
  if values = [] then result = default else IsLeast {value | value ∈ values} result

/-- The absolute value, cut off at the largest number of the type. -/
def cappedAbs (dtype : DType) (value : Int) : Int :=
  Min.min |value| (Scalar.greatestValue dtype)

/-- The result of a reduction of integers to their own type: the sum and the product modulo the
width, and the extreme values and absolute values. The other reductions have none. -/
def Reduction.IsExact (reduction : Reduction) (dtype : DType) (values : List Int) (result : Int) :
    Prop :=
  match reduction with
  | sum => WrapsTo dtype values.sum result
  | prod => WrapsTo dtype values.prod result
  | max => IsLargest (Scalar.leastValue dtype) values result
  | min => IsSmallest (Scalar.greatestValue dtype) values result
  | absMax => IsLargest 0 (values.map (cappedAbs dtype)) result
  | absMin => IsSmallest (Scalar.greatestValue dtype) (values.map (cappedAbs dtype)) result
  | _ => False

variable {dtype : DType} {values : List Int} {default result : Int}

theorem cappedAbs_nonneg (dtype : DType) (value : Int) : 0 ≤ cappedAbs dtype value :=
  le_min (abs_nonneg value) (Int.le_of_lt (Scalar.greatestValue_pos dtype))

theorem setOf_mem_append (values : List Int) (value : Int) :
    {x | x ∈ values ++ [value]} = insert value {x | x ∈ values} := by
  ext x
  simp [or_comm]

/-- One more value is compared with the largest one so far. -/
theorem IsLargest.append (h : IsLargest default values result) {value : Int}
    (hvalue : default ≤ value) :
    IsLargest default (values ++ [value]) (Max.max result value) := by
  rw [IsLargest, if_neg (by simp), setOf_mem_append]
  rw [IsLargest] at h
  split at h
  · rename_i hempty
    rw [hempty, h, max_eq_right hvalue]
    simp [isGreatest_singleton]
  · rw [max_comm]
    exact h.insert value

/-- One more value is compared with the smallest one so far. -/
theorem IsSmallest.append (h : IsSmallest default values result) {value : Int}
    (hvalue : value ≤ default) :
    IsSmallest default (values ++ [value]) (Min.min result value) := by
  rw [IsSmallest, if_neg (by simp), setOf_mem_append]
  rw [IsSmallest] at h
  split at h
  · rename_i hempty
    rw [hempty, h, min_eq_right hvalue]
    simp [isLeast_singleton]
  · rw [min_comm]
    exact h.insert value

/-- The value of an element is the result for everything that it agrees with. -/
theorem WrapsTo.of_modEq {x : Scalar dtype} {exact : Int}
    (h : x.value ≡ exact [ZMOD 2 ^ dtype.width]) : WrapsTo dtype exact x.value :=
  ⟨x.leastValue_le_value, x.value_le_greatestValue, h⟩

/-- Within the range of the type there is one integer for each remainder. -/
theorem WrapsTo.unique {exact other : Int} (h : WrapsTo dtype exact result)
    (hother : WrapsTo dtype exact other) : result = other := by
  have hdvd : (2 : Int) ^ dtype.width ∣ other - result :=
    (h.modEq.trans hother.modEq.symm).dvd
  have hrange : Scalar.greatestValue dtype - Scalar.leastValue dtype < 2 ^ dtype.width := by
    cases dtype <;> decide
  have hdistance : |other - result| < 2 ^ dtype.width := by
    have hleast := h.leastValue_le
    have hgreatest := h.le_greatestValue
    have hleast' := hother.leastValue_le
    have hgreatest' := hother.le_greatestValue
    rw [abs_lt]
    omega
  exact (Int.sub_eq_zero.mp (Int.eq_zero_of_abs_lt_dvd hdvd hdistance)).symm

theorem IsLargest.unique {other : Int} (h : IsLargest default values result)
    (hother : IsLargest default values other) : result = other := by
  unfold IsLargest at h hother
  split at h
  · rename_i hempty
    rw [if_pos hempty] at hother
    exact h.trans hother.symm
  · rename_i hvalues
    rw [if_neg hvalues] at hother
    exact IsGreatest.unique h hother

theorem IsSmallest.unique {other : Int} (h : IsSmallest default values result)
    (hother : IsSmallest default values other) : result = other := by
  unfold IsSmallest at h hother
  split at h
  · rename_i hempty
    rw [if_pos hempty] at hother
    exact h.trans hother.symm
  · rename_i hvalues
    rw [if_neg hvalues] at hother
    exact IsLeast.unique h hother

theorem setOf_mem_perm {others : List Int} (hperm : values.Perm others) :
    {value | value ∈ values} = {value | value ∈ others} := by
  ext value
  exact hperm.mem_iff

theorem eq_nil_iff_of_perm {others : List Int} (hperm : values.Perm others) :
    values = [] ↔ others = [] := by
  rw [← List.length_eq_zero_iff, hperm.length_eq, List.length_eq_zero_iff]

theorem IsLargest.perm {others : List Int} (hperm : values.Perm others)
    (h : IsLargest default values result) : IsLargest default others result := by
  simpa only [IsLargest, setOf_mem_perm hperm, eq_nil_iff_of_perm hperm] using h

theorem IsSmallest.perm {others : List Int} (hperm : values.Perm others)
    (h : IsSmallest default values result) : IsSmallest default others result := by
  simpa only [IsSmallest, setOf_mem_perm hperm, eq_nil_iff_of_perm hperm] using h

namespace Reduction.IsExact

variable {reduction : Reduction}

/-- There is only one exact result. -/
theorem unique {other : Int} (h : reduction.IsExact dtype values result)
    (hother : reduction.IsExact dtype values other) : result = other := by
  cases reduction with
  | sum | prod => exact WrapsTo.unique h hother
  | max | absMax => exact IsLargest.unique h hother
  | min | absMin => exact IsSmallest.unique h hother
  | mean | absMean | norm1 | norm2 | normMax | squaredNorm | countNonZero => exact h.elim

/-- The order of the values does not matter for the exact result. -/
theorem perm {others : List Int} (hperm : values.Perm others)
    (h : reduction.IsExact dtype values result) : reduction.IsExact dtype others result := by
  cases reduction with
  | sum =>
      show WrapsTo dtype others.sum result
      rw [← hperm.sum_eq]
      exact h
  | prod =>
      show WrapsTo dtype others.prod result
      rw [← hperm.prod_eq]
      exact h
  | max => exact IsLargest.perm hperm h
  | min => exact IsSmallest.perm hperm h
  | absMax => exact IsLargest.perm (hperm.map _) h
  | absMin => exact IsSmallest.perm (hperm.map _) h
  | mean | absMean | norm1 | norm2 | normMax | squaredNorm | countNonZero => exact h.elim

end Reduction.IsExact

/-! ## Strategies -/

namespace Reduction

variable {reduction : Reduction}

/-- The seed is the result for no elements. -/
theorem isExact_seed (hint : dtype.isInt) (hsame : reduction.outputRule = .sameAsInput) :
    reduction.IsExact dtype [] (reduction.intStrategy dtype).seed.value := by
  cases reduction with
  | sum =>
      refine WrapsTo.of_modEq ?_
      show (Scalar.zero dtype).value ≡ 0 [ZMOD _]
      rw [Scalar.value_zero]
  | prod =>
      refine WrapsTo.of_modEq ?_
      show (Scalar.one dtype).value ≡ 1 [ZMOD _]
      rw [Scalar.value_one hint]
  | max => exact Scalar.value_lowest dtype
  | min | absMin => exact Scalar.value_highest dtype
  | absMax => exact Scalar.value_zero dtype
  | mean | absMean | norm1 | norm2 | normMax | squaredNorm | countNonZero => cases hsame

/-- Taking in an element keeps the accumulator the result for all elements so far. -/
theorem IsExact.combine {acc : Scalar dtype} (h : reduction.IsExact dtype values acc.value)
    (x : Scalar dtype) :
    reduction.IsExact dtype (values ++ [x.value])
      ((reduction.intStrategy dtype).combine acc x).value := by
  cases reduction with
  | sum =>
      refine WrapsTo.of_modEq ?_
      rw [List.sum_append, List.sum_singleton]
      exact (Scalar.value_add acc x).trans (h.modEq.add_right x.value)
  | prod =>
      refine WrapsTo.of_modEq ?_
      rw [List.prod_append, List.prod_singleton]
      exact (Scalar.value_mul acc x).trans (h.modEq.mul_right x.value)
  | max =>
      show IsLargest _ _ (acc.max x).value
      rw [Scalar.value_max]
      exact IsLargest.append h x.leastValue_le_value
  | min =>
      show IsSmallest _ _ (acc.min x).value
      rw [Scalar.value_min]
      exact IsSmallest.append h x.value_le_greatestValue
  | absMax =>
      show IsLargest _ _ (acc.max x.magnitude).value
      rw [Scalar.value_max, List.map_append, Scalar.value_magnitude]
      exact IsLargest.append h (cappedAbs_nonneg dtype x.value)
  | absMin =>
      show IsSmallest _ _ (acc.min x.magnitude).value
      rw [Scalar.value_min, List.map_append, Scalar.value_magnitude]
      exact IsSmallest.append h (min_le_right _ _)
  | mean | absMean | norm1 | norm2 | normMax | squaredNorm | countNonZero => exact h.elim

/-- The accumulator of a list of elements is the result for their values. -/
theorem isExact_fold (hint : dtype.isInt) (hsame : reduction.outputRule = .sameAsInput)
    (elements : List (Scalar dtype)) :
    reduction.IsExact dtype (elements.map Scalar.value)
      ((reduction.intStrategy dtype).fold elements).value := by
  -- The induction is on the last element, which is the one that was taken in last.
  induction elements using List.reverseRecOn with
  | nil => exact isExact_seed hint hsame
  | append_singleton elements x ih =>
      rw [Strategy.fold_append, List.map_append]
      exact ih.combine x

/-- The result for a single value is the value, or its absolute value. -/
theorem isExact_singleton (hsame : reduction.outputRule = .sameAsInput) (x : Scalar dtype) :
    reduction.IsExact dtype [x.value]
      (if reduction = .absMax ∨ reduction = .absMin then cappedAbs dtype x.value else x.value) := by
  cases reduction with
  | sum | prod =>
      refine WrapsTo.of_modEq ?_
      simp
  | max => simp [IsExact, IsLargest]
  | min => simp [IsExact, IsSmallest]
  | absMax => simp [IsExact, IsLargest]
  | absMin => simp [IsExact, IsSmallest]
  | mean | absMean | norm1 | norm2 | normMax | squaredNorm | countNonZero => cases hsame

/-- An integer that is taken in first stays as it is, except that a negative one has another
absolute value. -/
theorem combine_seed_eq_iff (hint : dtype.isInt) (hsame : reduction.outputRule = .sameAsInput)
    (x : Scalar dtype) :
    (reduction.intStrategy dtype).combine (reduction.intStrategy dtype).seed x = x ↔
      (reduction = .absMax ∨ reduction = .absMin → 0 ≤ x.value) := by
  have hvalue := ((isExact_seed hint hsame).combine x).unique (isExact_singleton hsame x)
  have hcapped : cappedAbs dtype x.value = x.value ↔ 0 ≤ x.value := by
    constructor
    · intro heq
      exact heq ▸ cappedAbs_nonneg dtype x.value
    · intro hnonneg
      rw [cappedAbs, abs_of_nonneg hnonneg, min_eq_left x.value_le_greatestValue]
  have hiff : (reduction.intStrategy dtype).combine (reduction.intStrategy dtype).seed x = x ↔
      ((reduction.intStrategy dtype).combine (reduction.intStrategy dtype).seed x).value =
        x.value :=
    ⟨congrArg Scalar.value, Scalar.eq_of_value_eq⟩
  rw [hiff, hvalue]
  split
  · rename_i habsolute
    rw [hcapped]
    exact ⟨fun hnonneg _ ↦ hnonneg, fun hnonneg ↦ hnonneg habsolute⟩
  · rename_i hother
    exact iff_of_true rfl fun habsolute ↦ absurd habsolute hother

/-- The order of the elements does not matter for their accumulator. -/
theorem fold_perm (hint : dtype.isInt) (hsame : reduction.outputRule = .sameAsInput)
    {elements others : List (Scalar dtype)} (hperm : elements.Perm others) :
    (reduction.intStrategy dtype).fold elements = (reduction.intStrategy dtype).fold others := by
  have hexact := (isExact_fold hint hsame elements).perm (hperm.map Scalar.value)
  exact Scalar.eq_of_value_eq (hexact.unique (isExact_fold hint hsame others))

/-- Taking in an element goes along with joining from the left. -/
theorem combine_merge (reduction : Reduction) (left right x : Scalar dtype) :
    (reduction.intStrategy dtype).combine ((reduction.intStrategy dtype).merge left right) x =
      (reduction.intStrategy dtype).merge left
        ((reduction.intStrategy dtype).combine right x) := by
  cases reduction with
  | max => exact Scalar.max_assoc left right x
  | min => exact Scalar.min_assoc left right x
  | prod => exact Scalar.mul_assoc left right x
  | absMax => exact Scalar.max_assoc left right x.magnitude
  | absMin => exact Scalar.min_assoc left right x.magnitude
  | sum | mean | absMean | norm1 | norm2 | normMax | squaredNorm | countNonZero =>
      exact Scalar.add_assoc left right x

/-- An accumulator of largest absolute values is not negative. -/
theorem value_fold_absMax_nonneg (elements : List (Scalar dtype)) :
    0 ≤ ((absMax.intStrategy dtype).fold elements).value := by
  induction elements using List.reverseRecOn with
  | nil => exact (Scalar.value_zero dtype).ge
  | append_singleton elements x ih =>
      rw [Strategy.fold_append]
      show 0 ≤ (Scalar.max _ x.magnitude).value
      rw [Scalar.value_max, Scalar.value_magnitude]
      exact le_max_of_le_right (cappedAbs_nonneg dtype x.value)

/-- Joining with the accumulator of no elements changes nothing. -/
theorem merge_fold_seed (hint : dtype.isInt) (reduction : Reduction)
    (elements : List (Scalar dtype)) :
    (reduction.intStrategy dtype).merge ((reduction.intStrategy dtype).fold elements)
        (reduction.intStrategy dtype).seed =
      (reduction.intStrategy dtype).fold elements := by
  cases reduction with
  | max =>
      refine Scalar.max_eq_left ?_
      show (Scalar.lowest dtype).value ≤ _
      rw [Scalar.value_lowest]
      exact Scalar.leastValue_le_value _
  | min | absMin =>
      refine Scalar.min_eq_left ?_
      show _ ≤ (Scalar.highest dtype).value
      rw [Scalar.value_highest]
      exact Scalar.value_le_greatestValue _
  | prod => exact Scalar.mul_one hint _
  | absMax =>
      refine Scalar.max_eq_left ?_
      show (Scalar.zero dtype).value ≤ _
      rw [Scalar.value_zero]
      exact value_fold_absMax_nonneg elements
  | sum | mean | absMean | norm1 | norm2 | normMax | squaredNorm | countNonZero =>
      exact Scalar.add_zero _

/-- Accumulators in an integer type can be joined. -/
theorem joins_intStrategy (hint : dtype.isInt) (reduction : Reduction) :
    (reduction.intStrategy dtype).Joins := by
  intro left right
  -- One more element on the right is taken in after joining just as before.
  induction right using List.reverseRecOn with
  | nil =>
      rw [List.append_nil]
      exact merge_fold_seed hint reduction left
  | append_singleton right x ih =>
      rw [← List.append_assoc, Strategy.fold_append, Strategy.fold_append, ← ih]
      exact (combine_merge reduction _ _ x).symm

/-- Along some axes, each result is the exact one for the elements with its coordinates on the kept
axes. -/
theorem forall₂_isExact {workers : Workers} {requested : Option Nat} {layout : Layout}
    {cells : Array (Scalar dtype)} {axes : List Nat} {split : AxisSplit} (hint : dtype.isInt)
    (hsame : reduction.outputRule = .sameAsInput) (hlayout : layout.Addressable)
    (hcells : layout.requiredCells ≤ cells.size) (haxes : axes ≠ [])
    (hsplit : layout.splitAlong axes = .ok split) :
    List.Forall₂
      (fun outer result ↦ ∃ elements,
        layout.Holds cells
          (layout.coordinates.filter fun coords ↦ Layout.across axes coords = outer) elements ∧
        reduction.IsExact dtype (elements.map Scalar.value) result.value)
      (Order.rowMajor.coordinates (Layout.across axes layout.extents))
      (reduceAlong workers (reduction.intStrategy dtype) cells layout requested split) := by
  have hjoins := joins_intStrategy hint reduction
  refine (forall₂_reduceAlong_of_joins hlayout hcells hjoins haxes hsplit).imp ?_
  rintro outer result ⟨elements, hholds, rfl⟩
  exact ⟨elements, hholds, isExact_fold hint hsame elements⟩

end Reduction

end ArrayEngine
