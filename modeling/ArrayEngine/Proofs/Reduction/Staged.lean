import ArrayEngine.Proofs.Reduction.Agreement
import ArrayEngine.Proofs.Reduction.OutputExtents

/-!
# Reducing in stages

If the reduced axes stay in the shape with the extent one, the results of a reduction can be reduced
again along other axes. `KeptResults` describes the results of one stage: at each place lies the
accumulator of the elements that go there. The elements that go to a place of the second stage are
those that go to some place of the first stage which goes there in turn, so that the second stage
has the results of one reduction along the axes of both (`KeptResults.staged`).
-/

namespace ArrayEngine

open Layout

/-- A list falls into its fibres under a function. -/
theorem perm_flatMap_fibres {α β : Type} [DecidableEq β] {f : α → β} {xs : List α} {ys : List β}
    (hxs : xs.Nodup) (hys : ys.Nodup) (hmem : ∀ x ∈ xs, f x ∈ ys) :
    xs.Perm (ys.flatMap fun y ↦ xs.filter fun x ↦ f x = y) := by
  have hnodup : (ys.flatMap fun y ↦ xs.filter fun x ↦ f x = y).Nodup := by
    refine List.nodup_flatMap.mpr ⟨fun _ _ ↦ hxs.filter _, hys.imp fun hne ↦ ?_⟩
    intro x hleft hright
    have hleft := of_decide_eq_true (List.mem_filter.mp hleft).2
    have hright := of_decide_eq_true (List.mem_filter.mp hright).2
    exact hne (hleft.symm.trans hright)
  refine (List.perm_ext_iff_of_nodup hxs hnodup).mpr fun x ↦ ?_
  rw [List.mem_flatMap]
  constructor
  · intro hx
    exact ⟨f x, hmem x hx, List.mem_filter.mpr ⟨hx, decide_eq_true rfl⟩⟩
  · intro hx
    obtain ⟨y, _, hx⟩ := hx
    exact List.mem_of_mem_filter hx

/-! ## Coordinates with zeros -/

namespace Layout

/-- The coordinates with zeros on the marked axes. -/
def clear (mask : List Bool) (coords : List Nat) : List Nat :=
  List.zipWith (fun marked coord ↦ if marked then 0 else coord) mask coords

@[simp] theorem clear_cons (marked : Bool) (mask : List Bool) (coord : Nat) (coords : List Nat) :
    clear (marked :: mask) (coord :: coords) =
      (if marked then 0 else coord) :: clear mask coords := rfl

variable {mask : List Bool} {extents coords place : List Nat}

theorem inBox_clear (hmask : mask.length = extents.length) (h : InBox extents coords) :
    InBox (shrink mask extents) (clear mask coords) := by
  induction h generalizing mask with
  | nil =>
      obtain rfl : mask = [] := by simpa using hmask
      exact .nil
  | cons hcoord _ ih =>
      cases mask with
      | nil => simp at hmask
      | cons marked mask =>
          have hrest := ih (Nat.succ.inj hmask)
          rw [shrink_cons, clear_cons]
          refine inBox_cons.mpr ⟨?_, hrest⟩
          split
          · exact Nat.one_pos
          · exact hcoord

/-- Coordinates agree with a place of the shrunk extents on the axes that are not marked exactly if
they become this place. -/
theorem select_eq_select_iff (hmask : mask.length = extents.length) (h : InBox extents coords)
    (hplace : InBox (shrink mask extents) place) :
    select mask false coords = select mask false place ↔ clear mask coords = place := by
  induction h generalizing mask place with
  | nil =>
      obtain rfl : mask = [] := by simpa using hmask
      have hnil : place = [] := inBox_nil.mp hplace
      simp [clear, hnil]
  | cons hcoord _ ih =>
      cases mask with
      | nil => simp at hmask
      | cons marked mask =>
          rw [shrink_cons] at hplace
          cases hplace with
          | cons hfirst hplace =>
              have hrest := ih (Nat.succ.inj hmask) hplace
              cases marked with
              | true =>
                  -- There is only one coordinate along a shrunk axis.
                  have hzero := Nat.lt_one_iff.mp hfirst
                  simp [hrest, hzero]
              | false => simp [hrest]

end Layout

/-- The elements at coordinates that come in groups are those of the groups. -/
theorem Layout.Holds.flatMap {α κ : Type} {layout : Layout} {cells : Array α} {keys : List κ}
    {coords : κ → List (List Nat)} {elements : κ → List α}
    (h : ∀ key ∈ keys, layout.Holds cells (coords key) (elements key)) :
    layout.Holds cells (keys.flatMap coords) (keys.flatMap elements) := by
  rw [Holds, List.map_flatMap, List.map_flatMap]
  exact List.flatMap_congr h

namespace Reduction

variable {reduction : Reduction} {dtype : DType}

/-! ## Accumulators of accumulators -/

/-- An accumulator of smallest absolute values is not negative. -/
theorem value_fold_absMin_nonneg (elements : List (Scalar dtype)) :
    0 ≤ ((absMin.intStrategy dtype).fold elements).value := by
  induction elements using List.reverseRecOn with
  | nil =>
      show 0 ≤ (Scalar.highest dtype).value
      rw [Scalar.value_highest]
      exact Int.le_of_lt (Scalar.greatestValue_pos dtype)
  | append_singleton elements x ih =>
      rw [Strategy.fold_append]
      show 0 ≤ (Scalar.min _ x.magnitude).value
      rw [Scalar.value_min, Scalar.value_magnitude]
      exact le_min ih (cappedAbs_nonneg dtype x.value)

/-- An accumulator is taken in as an element in the same way as it is joined. -/
theorem combine_fold (reduction : Reduction) (acc : Scalar dtype)
    (elements : List (Scalar dtype)) :
    (reduction.intStrategy dtype).combine acc ((reduction.intStrategy dtype).fold elements) =
      (reduction.intStrategy dtype).merge acc ((reduction.intStrategy dtype).fold elements) := by
  -- An absolute value is its own absolute value.
  have hmagnitude {x : Scalar dtype} (h : 0 ≤ x.value) : x.magnitude = x :=
    if_neg (Int.not_lt.mpr h)
  cases reduction with
  | absMax => exact congrArg acc.max (hmagnitude (value_fold_absMax_nonneg elements))
  | absMin => exact congrArg acc.min (hmagnitude (value_fold_absMin_nonneg elements))
  | sum | mean | max | min | prod | absMean | norm1 | norm2 | normMax | squaredNorm
  | countNonZero => rfl

/-- The accumulator of the accumulators of some lists is that of all their elements. -/
theorem fold_map_fold (hint : dtype.isInt) (reduction : Reduction)
    (groups : List (List (Scalar dtype))) :
    (reduction.intStrategy dtype).fold (groups.map (reduction.intStrategy dtype).fold) =
      (reduction.intStrategy dtype).fold groups.flatten := by
  induction groups using List.reverseRecOn with
  | nil => rfl
  | append_singleton groups group ih =>
      rw [List.map_append, Strategy.fold_append, ih, List.flatten_append, List.flatten_singleton]
      show (reduction.intStrategy dtype).combine _ ((reduction.intStrategy dtype).fold group) = _
      rw [combine_fold]
      exact joins_intStrategy hint reduction groups.flatten group

/-! ## Places of results -/

/-- The coordinates of the result that an element contributes to, among results whose reduced axes
have the extent one. -/
def resultCoords (axes coords : List Nat) : List Nat :=
  coords.mapIdx fun axis coord ↦ if axes.contains axis then 0 else coord

variable {extents axes coords place : List Nat}

theorem resultCoords_append (first second coords : List Nat) :
    resultCoords second (resultCoords first coords) = resultCoords (first ++ second) coords := by
  apply List.ext_getElem
  · simp [resultCoords]
  · intro axis _ _
    simp [resultCoords]
    grind

theorem outputExtents_append (extents first second : List Nat) :
    outputExtents (outputExtents extents first true) second true =
      outputExtents extents (first ++ second) true := by
  apply List.ext_getElem
  · simp [outputExtents]
  · intro axis _ _
    simp [outputExtents]
    grind

theorem resultCoords_eq_clear (axes coords : List Nat) :
    resultCoords axes coords = clear (listed axes coords.length) coords := by
  apply List.ext_getElem <;> simp [resultCoords, clear, listed]

/-- Every element goes to a place within the extents of the results. -/
theorem inBox_resultCoords (axes : List Nat) (h : InBox extents coords) :
    InBox (outputExtents extents axes true) (resultCoords axes coords) := by
  rw [outputExtents_true, resultCoords_eq_clear, h.length_eq]
  exact inBox_clear (by simp) h

/-- An element goes to the place that has its coordinates on the kept axes. -/
theorem across_eq_across_iff (h : InBox extents coords)
    (hplace : InBox (outputExtents extents axes true) place) :
    across axes coords = across axes place ↔ resultCoords axes coords = place := by
  rw [outputExtents_true] at hplace
  have hlength : place.length = extents.length := by simpa [shrink] using hplace.length_eq
  rw [resultCoords_eq_clear, h.length_eq, ← select_listed_false axes h.length_eq,
    ← select_listed_false axes hlength]
  exact select_eq_select_iff (by simp) h hplace

/-- The places of the results are, in their order, the coordinates on the kept axes. -/
theorem map_across_coordinates (h : (Size.count? (across axes extents)).isSome) :
    (Order.rowMajor.coordinates (outputExtents extents axes true)).map (across axes) =
      Order.rowMajor.coordinates (across axes extents) := by
  have hvolume := (volume_outputExtents true h).2
  rw [Order.coordinates, Order.coordinates, List.map_map, hvolume]
  apply List.map_congr_left
  intro i hi
  have hlt : i < volume (outputExtents extents axes true) := hvolume ▸ List.mem_range.mp hi
  have hbox := Order.rowMajor.inBox_coords hlt
  have hindex := index_outputExtents hbox
  rw [Order.index_coords hlt] at hindex
  have hcoords := congrArg (Order.rowMajor.coords (across axes extents)) hindex
  rw [Order.coords_index (inBox_keptCoords hbox)] at hcoords
  exact hcoords.symm

/-- The elements that go to a place in two stages are those that go to the places of the first stage
which go there in the second. -/
theorem perm_flatMap_places {layout middle : Layout} {first : List Nat}
    (hmiddle : middle.extents = outputExtents layout.extents first true) (second place : List Nat) :
    (layout.coordinates.filter fun coords ↦ resultCoords (first ++ second) coords = place).Perm
      ((middle.coordinates.filter fun coords ↦ resultCoords second coords = place).flatMap
        fun through ↦ layout.coordinates.filter fun coords ↦
          resultCoords first coords = through) := by
  have hmem : ∀ coords ∈ layout.coordinates.filter fun coords ↦
        resultCoords (first ++ second) coords = place,
      resultCoords first coords ∈ middle.coordinates.filter fun coords ↦
        resultCoords second coords = place := by
    intro coords hmem
    obtain ⟨hcoords, hplace⟩ := List.mem_filter.mp hmem
    have hbox := inBox_resultCoords first (mem_coordinates.mp hcoords)
    rw [← hmiddle] at hbox
    refine List.mem_filter.mpr ⟨mem_coordinates.mpr hbox, ?_⟩
    rw [resultCoords_append]
    exact hplace
  have hfibres := perm_flatMap_fibres (layout.nodup_coordinates.filter _)
    (middle.nodup_coordinates.filter _) hmem
  refine hfibres.trans (List.Perm.of_eq (List.flatMap_congr fun through hthrough ↦ ?_))
  -- What goes through one of these places reaches the last one anyway.
  rw [List.filter_filter]
  refine List.filter_congr fun coords _ ↦ ?_
  by_cases hcoords : resultCoords first coords = through
  · have hplace := (List.mem_filter.mp hthrough).2
    rw [← hcoords, resultCoords_append] at hplace
    simp [hcoords, of_decide_eq_true hplace]
  · simp [hcoords]

/-! ## The results of one stage -/

/-- The elements that go to a place, in the order of the array. -/
def elementsAt {α : Type} (layout : Layout) (cells : Array α) (axes place : List Nat) : List α :=
  gather cells ((layout.coordinates.filter fun coords ↦ resultCoords axes coords = place).map
    layout.offsetAt)

/-- The results of a reduction of integers whose reduced axes are kept with the extent one: at each
place, in row-major order, the accumulator of the elements that go there. -/
def KeptResults (reduction : Reduction) {dtype : DType} (layout : Layout)
    (cells : Array (Scalar dtype)) (axes : List Nat) (results : List (Scalar dtype)) : Prop :=
  List.Forall₂
    (fun place result ↦ ∃ elements,
      layout.Holds cells (layout.coordinates.filter fun coords ↦ resultCoords axes coords = place)
        elements ∧
      result = (reduction.intStrategy dtype).fold elements)
    (Order.rowMajor.coordinates (outputExtents layout.extents axes true)) results

/-- The engine has these results along some axes. -/
theorem keptResults_reduceAlong {workers : Workers} {requested : Option Nat} {layout : Layout}
    {cells : Array (Scalar dtype)} {split : AxisSplit} (hint : dtype.isInt)
    (hlayout : layout.Addressable) (hcells : layout.requiredCells ≤ cells.size) (haxes : axes ≠ [])
    (hsplit : layout.splitAlong axes = .ok split) :
    reduction.KeptResults layout cells axes
      (reduceAlong workers (reduction.intStrategy dtype) cells layout requested split) := by
  have hresults : List.Forall₂ _ _
      (reduceAlong workers (reduction.intStrategy dtype) cells layout requested split) :=
    forall₂_reduceAlong_of_joins hlayout hcells (joins_intStrategy hint reduction) haxes hsplit
  rw [← map_across_coordinates (isSome_count?_across hlayout.length_strides haxes hsplit),
    List.forall₂_map_left_iff] at hresults
  have hplaces : ∀ place ∈ Order.rowMajor.coordinates (outputExtents layout.extents axes true),
      InBox (outputExtents layout.extents axes true) place := by
    intro place hmem
    obtain ⟨i, hi, rfl⟩ := List.mem_map.mp hmem
    exact Order.inBox_coords (List.mem_range.mp hi)
  refine ((List.forall₂_and_left _ _).mpr ⟨hplaces, hresults⟩).imp fun place result h ↦ ?_
  obtain ⟨hplace, elements, hholds, hresult⟩ := h
  refine ⟨elements, ?_, hresult⟩
  have hfilter : (layout.coordinates.filter fun coords ↦ across axes coords = across axes place) =
      layout.coordinates.filter fun coords ↦ resultCoords axes coords = place :=
    List.filter_congr fun coords hmem ↦
      decide_eq_decide.mpr (across_eq_across_iff (mem_coordinates.mp hmem) hplace)
  rw [← hfilter]
  exact hholds

section

variable {layout : Layout} {cells : Array (Scalar dtype)} {results others : List (Scalar dtype)}

/-- The elements leave no choice for the results. -/
theorem KeptResults.unique (h : reduction.KeptResults layout cells axes results)
    (hothers : reduction.KeptResults layout cells axes others) : results = others := by
  refine Relator.RightUnique.forall₂ ?_ h hothers
  intro place _ _ hleft hright
  obtain ⟨left, hleft, rfl⟩ := hleft
  obtain ⟨right, hright, rfl⟩ := hright
  rw [hleft.unique hright]

variable {first second : List Nat} (hint : dtype.isInt)
  (hsame : reduction.outputRule = .sameAsInput) (hlayout : layout.Addressable)
  (hcells : layout.requiredCells ≤ cells.size)
  (hlimit : volume (outputExtents layout.extents first true) < Size.limit)
  (hfirst : reduction.KeptResults layout cells first results)

include hlayout hcells

theorem holds_elementsAt (axes place : List Nat) :
    layout.Holds cells (layout.coordinates.filter fun coords ↦ resultCoords axes coords = place)
      (elementsAt layout cells axes place) :=
  holds_gather fun _ hmem ↦ offsetAt_lt_size hlayout hcells (List.mem_of_mem_filter hmem)

include hlimit hfirst

/-- In an array of the results of the first stage, there is at each place the accumulator of the
elements that go there. -/
theorem holds_results {places : List (List Nat)}
    (hplaces : ∀ place ∈ places, InBox (outputExtents layout.extents first true) place) :
    (packed (outputExtents layout.extents first true) .rowMajor dtype).Holds results.toArray places
      (places.map fun place ↦
        (reduction.intStrategy dtype).fold (elementsAt layout cells first place)) := by
  rw [Holds, List.map_map]
  apply List.map_congr_left
  intro place hmem
  have hplace := hplaces place hmem
  obtain ⟨result, hresult, elements, hholds, rfl⟩ :=
    Order.exists_of_forall₂_coordinates hfirst hplace
  rw [offsetAt_packed hlimit hplace, List.getElem?_toArray, hresult,
    hholds.unique (holds_elementsAt hlayout hcells first place)]
  rfl

include hint hsame

/-- The results of a second stage are those of one reduction along the axes of both. -/
theorem KeptResults.staged
    (hsecond : reduction.KeptResults
      (packed (outputExtents layout.extents first true) .rowMajor dtype) results.toArray second
      others) :
    reduction.KeptResults layout cells (first ++ second) others := by
  rw [KeptResults, ← outputExtents_append]
  refine hsecond.imp fun place result h ↦ ?_
  obtain ⟨found, hfound, rfl⟩ := h
  have hholds := holds_elementsAt hlayout hcells (first ++ second) place
  refine ⟨_, hholds, ?_⟩
  have hfound := hfound.unique (holds_results hlayout hcells hlimit hfirst fun through hmem ↦
    mem_coordinates.mp (List.mem_of_mem_filter hmem))
  have hgroups (places : List (List Nat)) :
      layout.Holds cells
        (places.flatMap fun through ↦ layout.coordinates.filter fun coords ↦
          resultCoords first coords = through)
        (places.flatMap (elementsAt layout cells first)) :=
    Holds.flatMap fun through _ ↦ holds_elementsAt hlayout hcells first through
  have hextents : (packed (outputExtents layout.extents first true) .rowMajor dtype).extents =
      outputExtents layout.extents first true := rfl
  have hperm := (hgroups _).perm (perm_flatMap_places hextents second place).symm hholds
  rw [hfound, ← fold_perm hint hsame hperm, List.flatMap_def, ← fold_map_fold hint reduction,
    List.map_map]
  rfl

end

end Reduction

end ArrayEngine
