import ArrayEngine.Proofs.Layout.SplitSuccess
import Mathlib.Data.List.Induction
import Mathlib.Data.List.Perm.Subperm

/-!
# When a layout cannot be split

A split checks the list of axes first, and reports the first one that does not exist or was listed
before. If there is none, the split into slices can still fail, since the layouts of the two parts
of the axes are built with checks of their own: without the axes of extent zero, an array without
elements can be too large to address. `splitAlong_outcome` gives the outcome of every split of an
accepted layout.
-/

namespace ArrayEngine.Layout

/-! ## Axes that exist and are listed once -/

/-- The listed axes exist, and none of them is listed twice. -/
def DistinctAxes (rank : Nat) (axes : List Nat) : Prop :=
  axes.Nodup ∧ ∀ axis ∈ axes, axis < rank

variable {rank axis : Nat} {axes passed : List Nat}

theorem distinctAxes_range (rank : Nat) : DistinctAxes rank (List.range rank) :=
  ⟨List.nodup_range, fun _ ↦ List.mem_range.mp⟩

theorem distinctAxes_concat :
    DistinctAxes rank (passed ++ [axis]) ↔
      DistinctAxes rank passed ∧ axis < rank ∧ axis ∉ passed := by
  rw [DistinctAxes, List.nodup_append_comm, List.singleton_append, List.nodup_cons,
    DistinctAxes]
  simp only [List.mem_append, List.mem_singleton]
  grind

/-- Otherwise there is a first axis that does not exist or was listed before. -/
theorem exists_first_offending (h : ¬DistinctAxes rank axes) :
    ∃ passed axis rest, axes = passed ++ axis :: rest ∧ DistinctAxes rank passed ∧
      (rank ≤ axis ∨ axis ∈ passed) := by
  induction axes using List.reverseRecOn with
  | nil => exact absurd ⟨List.nodup_nil, by simp⟩ h
  | append_singleton front last ih =>
      by_cases hfront : DistinctAxes rank front
      · refine ⟨front, last, [], rfl, hfront, ?_⟩
        rw [distinctAxes_concat] at h
        by_contra hproper
        push Not at hproper
        exact h ⟨hfront, hproper⟩
      · obtain ⟨passed, axis, rest, rfl, hpassed, hoffends⟩ := ih hfront
        exact ⟨passed, axis, rest ++ [last], by simp, hpassed, hoffends⟩

/-- Distinct axes are all axes exactly when there are as many of them. -/
theorem DistinctAxes.length_eq_iff (h : DistinctAxes rank axes) :
    axes.length = rank ↔ ∀ axis < rank, axis ∈ axes := by
  have hsubset : axes ⊆ List.range rank := fun axis hmem ↦ List.mem_range.mpr (h.2 axis hmem)
  have hsubperm := List.subperm_of_subset h.1 hsubset
  constructor
  · intro hlength axis haxis
    have hperm := hsubperm.perm_of_length_le (by rw [List.length_range, hlength])
    exact hperm.mem_iff.mpr (List.mem_range.mpr haxis)
  · intro hall
    have hle := hsubperm.length_le
    have hge := (List.subperm_of_subset List.nodup_range
      fun axis hmem ↦ hall axis (List.mem_range.mp hmem)).length_le
    rw [List.length_range] at hle hge
    omega

/-! ## Marking axes -/

theorem markAxes_append (mask : List Bool) (xs ys : List Nat) :
    markAxes mask (xs ++ ys) = (markAxes mask xs >>= fun marked ↦ markAxes marked ys) := by
  induction xs generalizing mask with
  | nil => rfl
  | cons axis rest ih =>
      rw [List.cons_append, markAxes, markAxes]
      split
      · rfl
      · rfl
      · exact ih _

theorem getElem?_listed (haxis : axis < rank) :
    (listed axes rank)[axis]? = some (axes.contains axis) := by
  simp [listed, haxis]

/-- Distinct axes are marked. -/
theorem DistinctAxes.axisMask_eq (h : DistinctAxes rank axes) :
    axisMask axes rank = .ok (listed axes rank) := by
  induction axes using List.reverseRecOn with
  | nil =>
      have hmask : axisMask [] rank = .ok (List.replicate rank false) := rfl
      rw [hmask, axisMask_eq_ok hmask]
  | append_singleton front last ih =>
      obtain ⟨hfront, hlast, hnew⟩ := distinctAxes_concat.mp h
      have hmarked : ∃ mask, axisMask (front ++ [last]) rank = .ok mask := by
        rw [axisMask, markAxes_append, ← axisMask, ih hfront]
        show ∃ mask, markAxes (listed front rank) [last] = .ok mask
        rw [markAxes, getElem?_listed hlast]
        simp [hnew, markAxes]
      obtain ⟨mask, hmask⟩ := hmarked
      rw [hmask, axisMask_eq_ok hmask]

/-- Behind distinct axes, one that does not exist or was listed before is reported. -/
theorem DistinctAxes.axisMask_append (h : DistinctAxes rank passed) (rest : List Nat) :
    (rank ≤ axis → axisMask (passed ++ axis :: rest) rank = .error (.invalidAxis axis rank)) ∧
      (axis ∈ passed → axisMask (passed ++ axis :: rest) rank = .error (repeatedAxis axis)) := by
  rw [axisMask, markAxes_append, ← axisMask, h.axisMask_eq]
  show (_ → markAxes (listed passed rank) (axis :: rest) = _) ∧
    (_ → markAxes (listed passed rank) (axis :: rest) = _)
  rw [markAxes]
  constructor
  · intro hlarge
    rw [List.getElem?_eq_none (by simpa using hlarge), length_listed]
  · intro hmem
    rw [getElem?_listed (h.2 axis hmem), List.contains_iff_mem.mpr hmem]

/-! ## The layouts of the two parts -/

/-- A machine can address and count the elements on these axes. -/
def Fits (extents strides : List Nat) : Prop :=
  (span? extents strides).isSome ∧ (Size.count? extents).isSome

/-- A machine can address and count the elements on the listed axes, and those on the others. -/
def Splittable (layout : Layout) (axes : List Nat) : Prop :=
  Fits (along axes layout.extents) (along axes layout.strides) ∧
    Fits (across axes layout.extents) (across axes layout.strides)

variable {layout : Layout}

theorem splittable_iff (hlength : layout.strides.length = layout.extents.length) :
    layout.Splittable axes ↔ ∀ chosen,
      Fits (select (listed axes layout.rank) chosen layout.extents)
        (select (listed axes layout.rank) chosen layout.strides) := by
  have hextents : layout.extents.length = layout.rank := rfl
  have hstrides : layout.strides.length = layout.rank := hlength
  rw [Bool.forall_bool, select_listed_true axes hextents, select_listed_true axes hstrides,
    select_listed_false axes hextents, select_listed_false axes hstrides, and_comm, Splittable]

/-- Without too many axes, given strides are refused only if they do not fit. -/
theorem strided_of_not_fits {extents strides : List Nat} (hrank : extents.length ≤ maxRank)
    (hlength : strides.length = extents.length) (h : ¬Fits extents strides) (order : Order)
    (dtype : DType) :
    ∃ reason, strided extents strides order dtype = .error (.invalidShape reason) := by
  rw [strided, if_neg (by omega), if_neg (by omega)]
  by_cases hspan : (span? extents strides).isSome
  · have hcount : ¬(Size.count? extents).isSome := fun hcount ↦ h ⟨hspan, hcount⟩
    rw [if_neg (by simpa [Option.isSome_iff_ne_none] using hspan), if_pos (by simpa using hcount)]
    exact ⟨_, rfl⟩
  · rw [if_pos (by simpa using hspan)]
    exact ⟨_, rfl⟩

/-- An array with elements can be split. -/
theorem Addressable.splittable (hlayout : layout.Addressable) (hrank : layout.rank ≤ maxRank)
    (hpos : 0 < layout.size) (axes : List Nat) : layout.Splittable axes := by
  refine (splittable_iff hlayout.length_strides).mpr fun chosen ↦ ?_
  have haccepted := hlayout.strided_select hrank hpos (listed axes layout.rank) chosen layout.order
  obtain ⟨_, _, hspan, hcount, _⟩ := strided_eq_ok_iff.mp haccepted
  exact ⟨hspan, hcount⟩

/-- Distinct axes split a layout by their number. -/
theorem DistinctAxes.splitAlong_eq (h : DistinctAxes layout.rank axes) :
    layout.splitAlong axes =
      if axes = [] then .ok .elements
      else if axes.length = layout.rank then .ok .whole
      else layout.slicesAlong (listed axes layout.rank) >>= fun slices ↦ .ok (.slices slices) := by
  rw [splitAlong, h.axisMask_eq]
  simp only [← List.isEmpty_iff]
  rfl

/-- Along all axes, if there are any, the array is one slice. -/
theorem splitAlong_range (hpos : 0 < layout.rank) :
    layout.splitAlong (List.range layout.rank) = .ok .whole := by
  rw [(distinctAxes_range layout.rank).splitAlong_eq, if_neg (by simpa using Nat.ne_of_gt hpos),
    if_pos List.length_range]

section

variable (hrank : layout.rank ≤ maxRank)
  (hlength : layout.strides.length = layout.extents.length)

include hrank hlength

/-- The layout of a part that fits is accepted, and that of another one is refused. -/
theorem strided_select_cases (mask : List Bool) (chosen : Bool) (order : Order) :
    Fits (select mask chosen layout.extents) (select mask chosen layout.strides) ∧
      (∃ part, strided (select mask chosen layout.extents) (select mask chosen layout.strides)
        order layout.dtype = .ok part) ∨
    ¬Fits (select mask chosen layout.extents) (select mask chosen layout.strides) ∧
      ∃ reason, strided (select mask chosen layout.extents) (select mask chosen layout.strides)
        order layout.dtype = .error (.invalidShape reason) := by
  have hpart := (length_select_le mask chosen layout.extents).trans hrank
  have hparts := length_select_eq hlength mask chosen
  by_cases h : Fits (select mask chosen layout.extents) (select mask chosen layout.strides)
  · exact .inl ⟨h, _, strided_eq_ok_iff.mpr ⟨hpart, hparts, h.1, h.2, rfl⟩⟩
  · exact .inr ⟨h, strided_of_not_fits hpart hparts h order layout.dtype⟩

/-- There are slices along the listed axes exactly if both parts fit. -/
theorem slicesAlong_cases (axes : List Nat) :
    layout.Splittable axes ∧
      (∃ slices, layout.slicesAlong (listed axes layout.rank) = .ok slices) ∨
    ¬layout.Splittable axes ∧
      ∃ reason, layout.slicesAlong (listed axes layout.rank) = .error (.invalidShape reason) := by
  rw [splittable_iff hlength, Bool.forall_bool, slicesAlong]
  rcases strided_select_cases hrank hlength (listed axes layout.rank) true layout.order with
    ⟨hslice, slice, hslice_eq⟩ | ⟨hslice, reason, hreason⟩
  · rcases strided_select_cases hrank hlength (listed axes layout.rank) false .rowMajor with
      ⟨houter, outer, houter_eq⟩ | ⟨houter, reason, hreason⟩
    · exact .inl ⟨⟨houter, hslice⟩, _, bind_eq_ok.mpr ⟨slice, hslice_eq,
        bind_eq_ok.mpr ⟨outer, houter_eq, rfl⟩⟩⟩
    · refine .inr ⟨fun h ↦ houter h.1, reason, ?_⟩
      rw [hslice_eq]
      dsimp only
      rw [hreason]
      rfl
  · rw [hreason]
    exact .inr ⟨fun h ↦ hslice h.2, reason, rfl⟩

/-- How distinct axes split a layout. -/
theorem DistinctAxes.splitAlong_cases (h : DistinctAxes layout.rank axes) :
    axes = [] ∧ layout.splitAlong axes = .ok .elements ∨
    axes ≠ [] ∧ (∀ axis < layout.rank, axis ∈ axes) ∧ layout.splitAlong axes = .ok .whole ∨
    axes ≠ [] ∧ ¬(∀ axis < layout.rank, axis ∈ axes) ∧
      (layout.Splittable axes ∧ (∃ slices, layout.splitAlong axes = .ok (.slices slices)) ∨
        ¬layout.Splittable axes ∧
          ∃ reason, layout.splitAlong axes = .error (.invalidShape reason)) := by
  rw [← h.length_eq_iff, h.splitAlong_eq]
  by_cases hnil : axes = []
  · exact .inl ⟨hnil, if_pos hnil⟩
  · rw [if_neg hnil]
    by_cases hall : axes.length = layout.rank
    · exact .inr (.inl ⟨hnil, hall, if_pos hall⟩)
    · rw [if_neg hall]
      refine .inr (.inr ⟨hnil, hall, ?_⟩)
      rcases slicesAlong_cases hrank hlength axes with
        ⟨hsplittable, slices, hslices⟩ | ⟨hsplittable, reason, hreason⟩
      · exact .inl ⟨hsplittable, slices, by rw [hslices]; rfl⟩
      · exact .inr ⟨hsplittable, reason, by rw [hreason]; rfl⟩

end

/-- The outcome of splitting an accepted layout along any list of axes. If not all of the axes
exist and are listed once, the first one that does not exist or was listed before is reported.
Otherwise no axes leave the elements, all axes take the whole array, and other ones give slices,
unless the machine cannot address or count the elements on the listed axes or those on the others.
That happens only if the array has no elements. -/
theorem splitAlong_outcome {extents strides : List Nat} {order : Order} {dtype : DType}
    (hlayout : strided extents strides order dtype = .ok layout) (axes : List Nat) :
    (¬DistinctAxes layout.rank axes →
      ∃ passed axis rest, axes = passed ++ axis :: rest ∧ DistinctAxes layout.rank passed ∧
        (layout.rank ≤ axis ∧ layout.splitAlong axes = .error (.invalidAxis axis layout.rank) ∨
          axis ∈ passed ∧ layout.splitAlong axes = .error (repeatedAxis axis))) ∧
    (DistinctAxes layout.rank axes →
      (layout.splitAlong axes = .ok .elements ↔ axes = []) ∧
      (layout.splitAlong axes = .ok .whole ↔
        axes ≠ [] ∧ ∀ axis < layout.rank, axis ∈ axes) ∧
      ((∃ slices, layout.splitAlong axes = .ok (.slices slices)) ↔
        axes ≠ [] ∧ ¬(∀ axis < layout.rank, axis ∈ axes) ∧ layout.Splittable axes) ∧
      ((∃ reason, layout.splitAlong axes = .error (.invalidShape reason)) ↔
        axes ≠ [] ∧ ¬(∀ axis < layout.rank, axis ∈ axes) ∧ ¬layout.Splittable axes)) ∧
    (0 < layout.size → layout.Splittable axes) := by
  have haddressable := addressable_of_strided hlayout
  have hrank : layout.rank ≤ maxRank := by
    obtain ⟨hrank, _, _, _, rfl⟩ := strided_eq_ok_iff.mp hlayout
    exact hrank
  refine ⟨fun h ↦ ?_, fun h ↦ ?_, fun hpos ↦ haddressable.splittable hrank hpos axes⟩
  · obtain ⟨passed, axis, rest, rfl, hpassed, hoffends⟩ := exists_first_offending h
    refine ⟨passed, axis, rest, rfl, hpassed, ?_⟩
    rcases hoffends with haxis | hmem
    · have herror := (hpassed.axisMask_append rest).1 haxis
      exact .inl ⟨haxis, splitAlong_of_axisMask_error herror⟩
    · have herror := (hpassed.axisMask_append rest).2 hmem
      exact .inr ⟨hmem, splitAlong_of_axisMask_error herror⟩
  · rcases h.splitAlong_cases hrank haddressable.length_strides with
      ⟨hnil, hsplit⟩ | ⟨hnil, hall, hsplit⟩ |
        ⟨hnil, hall, ⟨hfits, slices, hsplit⟩ | ⟨hfits, reason, hsplit⟩⟩
    all_goals
      rw [hsplit]
      grind

/-- A column-major array whose middle axis stands still is split along the axes around it. -/
theorem splitAlong_outcome_outer :
    strided [2, 3, 4] [1, 0, 9] .columnMajor .i16 =
        .ok (make [2, 3, 4] [1, 0, 9] .columnMajor .i16) ∧
      DistinctAxes 3 [2, 0] ∧
      ∃ slices, (make [2, 3, 4] [1, 0, 9] .columnMajor .i16).splitAlong [2, 0] =
        .ok (.slices slices) := by
  have hlayout : strided [2, 3, 4] [1, 0, 9] .columnMajor .i16 =
      .ok (make [2, 3, 4] [1, 0, 9] .columnMajor .i16) := rfl
  have hdistinct : DistinctAxes 3 [2, 0] := by simp [DistinctAxes]
  obtain ⟨_, hproper, hsplittable⟩ := splitAlong_outcome hlayout [2, 0]
  obtain ⟨_, _, hslices, _⟩ := hproper hdistinct
  refine ⟨hlayout, hdistinct, hslices.mpr ⟨by simp, ?_, hsplittable (by decide)⟩⟩
  intro hall
  exact absurd (hall 1 (by decide)) (by decide)

/-- An array without elements that cannot be split along an axis that exists and is listed once,
since without the axis of extent zero the offsets would be too large. -/
theorem splitAlong_refuses_distinct :
    strided [0, 4] [1, 2 ^ 63] .rowMajor .f32 = .ok (make [0, 4] [1, 2 ^ 63] .rowMajor .f32) ∧
      DistinctAxes (make [0, 4] [1, 2 ^ 63] .rowMajor .f32).rank [1] ∧
      (make [0, 4] [1, 2 ^ 63] .rowMajor .f32).splitAlong [1] =
        .error (.invalidShape ("extents " ++ Text.bracketed [4] ++ " with strides " ++
          Text.bracketed [2 ^ 63] ++ " overflow the address space")) :=
  ⟨rfl, ⟨by simp, by decide⟩, rfl⟩

end ArrayEngine.Layout
