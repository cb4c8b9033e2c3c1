import ArrayEngine.Proofs.Layout.AxisSplit
import ArrayEngine.Proofs.Reduction.Engine

/-!
# Reducing an array slice by slice

The elements of an array are the cells at the offsets of its coordinates. `reduceAlong_split` says
what the engine makes of an array along a split of its axes: each result is that of a plain array
which holds the elements with the coordinates of the result on the kept axes, in the order of the
array, and nothing else.
-/

namespace ArrayEngine

open Layout

/-- The buffer holds these elements at the given coordinates of the layout, one after another. -/
def Layout.Holds {α : Type} (layout : Layout) (cells : Array α) (coords : List (List Nat))
    (elements : List α) : Prop :=
  (coords.map fun coords ↦ cells[layout.offsetAt coords]?) = elements.map some

/-- A buffer holds the cells at the offsets of coordinates, if all of them lie within the buffer. -/
theorem Layout.holds_gather {α : Type} {layout : Layout} {cells : Array α}
    {coords : List (List Nat)} (h : ∀ c ∈ coords, layout.offsetAt c < cells.size) :
    layout.Holds cells coords (gather cells (coords.map layout.offsetAt)) := by
  rw [Holds, map_some_gather (by simpa using h), List.map_map]
  rfl

theorem Layout.Holds.length_eq {α : Type} {layout : Layout} {cells : Array α}
    {coords : List (List Nat)} {elements : List α} (h : layout.Holds cells coords elements) :
    elements.length = coords.length := by
  have hlength := congrArg List.length h
  simpa using hlength.symm

theorem Layout.Holds.unique {α : Type} {layout : Layout} {cells : Array α}
    {coords : List (List Nat)} {left right : List α} (hleft : layout.Holds cells coords left)
    (hright : layout.Holds cells coords right) : left = right :=
  List.map_injective_iff.mpr (Option.some_injective α) (hleft.symm.trans hright)

/-! ## Views of whole layouts -/

namespace View

variable {layout : Layout} {base : Nat} {view : View}

/-- The view selects all elements of a layout, with the first one at the base if it lies at offset
zero: by the uniform stride, if there is one, or by the indexer of the layout. -/
inductive Selects (layout : Layout) (base : Nat) : View → Prop
  | strided {stride : Nat} :
      layout.uniformStride = some stride → Selects layout base (.strided base stride layout.size)
  | indexed : Selects layout base (.indexed base (.ofLayout layout))

theorem selects_ofLayout (layout : Layout) (base : Nat) :
    Selects layout base (ofLayout layout base) := by
  rw [ofLayout, ofIndexer]
  split
  · rename_i stride hstride
    exact .strided hstride
  · exact .indexed

namespace Selects

variable (h : Selects layout base view)

include h

theorem size_eq : view.size = layout.size := by
  cases h <;> rfl

variable (hlayout : layout.Addressable)

include hlayout

/-- A view of a layout, strided or not, has the offsets of the layout behind its base. -/
theorem offsetOf_eq {i : Nat} (hi : i < layout.size) :
    view.offsetOf i = base + layout.offsetOf i := by
  cases h with
  | strided hstride => rw [offsetOf, Layout.offsetOf, hstride]
  | indexed => rw [offsetOf, hlayout.offsetOf_ofLayout hi]

theorem within {held : Nat} (hcells : ∀ offset ∈ layout.offsets, base + offset < held) :
    view.Within held := by
  refine ⟨fun {start indexer} heq ↦ ?_, fun {i} hi ↦ ?_⟩
  · cases h with
    | strided => cases heq
    | indexed =>
        cases heq
        exact ⟨layout, hlayout, rfl⟩
  · rw [h.size_eq] at hi
    rw [h.offsetOf_eq hlayout hi]
    refine hcells _ ?_
    rw [hlayout.offsets_eq_map_range]
    exact List.mem_map_of_mem (List.mem_range.mpr hi)

/-- A buffer that is large enough for every addressable layout has the cells of the view. -/
theorem within_largest : view.Within (base + Size.largest) := by
  refine h.within hlayout fun offset hoffset ↦ ?_
  rw [hlayout.offsets_eq_map_range] at hoffset
  obtain ⟨i, hi, rfl⟩ := List.mem_map.mp hoffset
  exact Nat.add_lt_add_left (hlayout.offsetOf_lt (List.mem_range.mp hi)) base

/-- All offsets of the view are those of the layout behind its base. -/
theorem map_offsetOf :
    (List.range view.size).map view.offsetOf = layout.offsets.map (base + ·) := by
  rw [h.size_eq, hlayout.offsets_eq_map_range, List.map_map]
  exact List.map_congr_left fun i hi ↦ h.offsetOf_eq hlayout (List.mem_range.mp hi)

/-- A view of a layout selects the cells at the offsets of the layout behind its base. -/
theorem elements_eq {α : Type} (cells : Array α) :
    view.elements cells = gather cells (layout.offsets.map (base + ·)) := by
  rw [elements, h.map_offsetOf hlayout]

end Selects

end View

/-! ## Results -/

section

variable {α β γ : Type} (workers : Workers) (strategy : Strategy α β γ) (requested : Option Nat)

/-- The engine makes of a layout what it makes of the list of the elements of the layout. -/
theorem reduce_ofLayout {cells : Array α} {layout : Layout} (hlayout : layout.Addressable)
    {base : Nat} (h : ∀ offset ∈ layout.offsets, base + offset < cells.size) :
    reduce workers strategy cells (.ofLayout layout base) requested =
      reduceList workers strategy (gather cells (layout.offsets.map (base + ·))) requested := by
  have hselects := View.selects_ofLayout layout base
  rw [reduce_eq_reduceList workers strategy (hselects.within hlayout h),
    hselects.elements_eq hlayout]

/-- The result is that of an array which holds just these elements, one behind the other, and it is
finalized with their number. -/
structure ReducesTo (elements : List α) (result : γ) : Prop where
  eq_reduce (dtype : DType) :
    result = reduce workers strategy elements.toArray
      (.ofLayout (.packed [elements.length] .rowMajor dtype) 0) requested
  finalized :
    ∃ parts : List (List α), parts.flatten = elements ∧ (∀ part ∈ parts, part ≠ []) ∧
      result = strategy.finalize (strategy.mergeAll (parts.map strategy.fold)) elements.length

/-- If accumulators can be joined, the result is that of one fold. -/
theorem ReducesTo.eq_fold {workers : Workers} {strategy : Strategy α β γ}
    {requested : Option Nat} {elements : List α} {result : γ}
    (h : ReducesTo workers strategy requested elements result) (hjoins : strategy.Joins) :
    result = strategy.finalize (strategy.fold elements) elements.length := by
  obtain ⟨parts, hflatten, _, hresult⟩ := h.finalized
  rw [hresult, hjoins.mergeAll_map_fold, hflatten]

/-- Reading the cells one after the other gives the first part of the buffer. -/
theorem gather_range (cells : Array α) (count : Nat) :
    gather cells (List.range count) = cells.toList.take count := by
  induction count with
  | zero => simp [gather]
  | succ count ih =>
      rw [gather] at ih ⊢
      rw [List.range_succ, List.filterMap_append, ih, List.take_add_one, Array.getElem?_toList]
      cases hcell : cells[count]? <;> simp [hcell]

/-- A list that is not too long reduces to what the engine makes of the list. -/
theorem reducesTo_reduceList {elements : List α} (h : elements.length < Size.limit) :
    ReducesTo workers strategy requested elements
      (reduceList workers strategy elements requested) := by
  refine ⟨fun dtype ↦ ?_, exists_parts workers strategy elements requested⟩
  have hvolume : volume [elements.length] < Size.limit := by simpa using h
  have hoffsets := offsets_packed hvolume .rowMajor dtype
  rw [reduce_ofLayout workers strategy requested (addressable_packed hvolume .rowMajor dtype)]
  · simp [hoffsets, gather_range]
  · simp [hoffsets]

variable {workers strategy requested} {cells : Array α} {layout : Layout} {axes : List Nat}

/-- A view whose offsets are those of some coordinates of a layout reduces to what becomes of the
elements at these coordinates. -/
theorem exists_holds_reducesTo {inner : Layout} (hinner : inner.Addressable) {base : Nat}
    {coords : List (List Nat)} (hcoords : ∀ c ∈ coords, layout.offsetAt c < cells.size)
    (hoffsets : inner.offsets.map (base + ·) = coords.map layout.offsetAt) :
    ∃ elements, layout.Holds cells coords elements ∧
      ReducesTo workers strategy requested elements
        (reduce workers strategy cells (.ofLayout inner base) requested) := by
  have hholds := holds_gather hcoords
  -- The cells that the view reads are those of the coordinates, so they lie in the buffer.
  have hinside : ∀ offset ∈ inner.offsets, base + offset < cells.size := by
    intro offset hoffset
    have hmem : base + offset ∈ coords.map layout.offsetAt := hoffsets ▸ List.mem_map_of_mem hoffset
    obtain ⟨c, hc, heq⟩ := List.mem_map.mp hmem
    exact heq ▸ hcoords c hc
  have hlength : coords.length = inner.size := by
    have hlength := congrArg List.length hoffsets
    rw [List.length_map, List.length_map, hinner.offsets_eq_map_range] at hlength
    simpa using hlength.symm
  refine ⟨_, hholds, ?_⟩
  rw [reduce_ofLayout workers strategy requested hinner hinside, hoffsets]
  refine reducesTo_reduceList workers strategy requested ?_
  rw [hholds.length_eq, hlength]
  exact hinner.size_lt

section

variable (hlayout : layout.Addressable) (hcells : layout.requiredCells ≤ cells.size)

include hlayout hcells

/-- A buffer with the cells that a layout needs holds all its elements. -/
theorem offsetAt_lt_size {coords : List Nat} (h : coords ∈ layout.coordinates) :
    layout.offsetAt coords < cells.size :=
  Nat.lt_of_lt_of_le (hlayout.offsetAt_lt_requiredCells (mem_coordinates.mp h)) hcells

theorem offset_lt_size {offset : Nat} (h : offset ∈ layout.offsets) : offset < cells.size := by
  rw [hlayout.offsets_eq] at h
  obtain ⟨coords, hcoords, rfl⟩ := List.mem_map.mp h
  exact offsetAt_lt_size hlayout hcells hcoords

/-- A whole array reduces to what becomes of its elements. -/
theorem reduce_whole :
    ∃ elements, layout.Holds cells layout.coordinates elements ∧
      ReducesTo workers strategy requested elements
        (reduce workers strategy cells (.ofLayout layout 0) requested) := by
  refine exists_holds_reducesTo hlayout (fun _ ↦ offsetAt_lt_size hlayout hcells) ?_
  simp [hlayout.offsets_eq]

/-- A slice reduces to what becomes of the elements with its coordinates on the kept axes. -/
theorem reduce_slice {slices : Slices} (hslices : slices.Along layout axes) {outer : List Nat}
    (houter : InBox (across axes layout.extents) outer) :
    ∃ elements, layout.Holds cells
        (layout.coordinates.filter fun coords ↦ across axes coords = outer) elements ∧
      ReducesTo workers strategy requested elements
        (reduce workers strategy cells (.ofLayout slices.layout
          (List.zipWith (· * ·) outer (across axes layout.strides)).sum) requested) := by
  refine exists_holds_reducesTo hslices.addressable
    (fun _ hmem ↦ offsetAt_lt_size hlayout hcells (List.mem_of_mem_filter hmem)) ?_
  rw [hslices.addressable.offsets_eq, ← hslices.map_along_filter houter, List.map_map, List.map_map]
  apply List.map_congr_left
  intro coords hmem
  obtain ⟨hcoords, hacross⟩ := List.mem_filter.mp hmem
  rw [Function.comp_apply, Function.comp_apply,
    hslices.offsetAt_eq_add hlayout.length_strides (mem_coordinates.mp hcoords),
    of_decide_eq_true hacross]

/-- If axes are chosen, each result is what becomes of the elements with its coordinates on the kept
axes, in row-major order of these. -/
theorem forall₂_reduceAlong (haxes : axes ≠ []) {split : AxisSplit}
    (hsplit : layout.splitAlong axes = .ok split) :
    List.Forall₂
      (fun outer result ↦ ∃ elements,
        layout.Holds cells (layout.coordinates.filter fun coords ↦ across axes coords = outer)
          elements ∧
        ReducesTo workers strategy requested elements result)
      (Order.rowMajor.coordinates (across axes layout.extents))
      (reduceAlong workers strategy cells layout requested split) := by
  rcases splitAlong_eq_ok hsplit with
    ⟨mask, hmask, ⟨hnil, _⟩ | ⟨_, hlength, rfl⟩ | ⟨_, slices, _, rfl⟩⟩
  · exact absurd hnil haxes
  · -- With no axis left there is one choice of coordinates, which all elements agree with.
    have hnil {entries : List Nat} (h : entries.length = layout.rank) :
        across axes entries = [] := across_eq_nil (h ▸ hmask) (hlength.trans h.symm)
    have hall : (layout.coordinates.filter fun coords ↦ across axes coords = []) =
        layout.coordinates :=
      List.filter_eq_self.mpr fun coords hmem ↦
        decide_eq_true (hnil (mem_coordinates.mp hmem).length_eq)
    rw [hnil rfl]
    refine .cons ?_ .nil
    show ∃ elements, layout.Holds cells
      (layout.coordinates.filter fun coords ↦ across axes coords = []) elements ∧ _
    rw [hall]
    exact reduce_whole hlayout hcells
  · have hslices := along_of_splitAlong hlayout.length_strides hsplit
    simp only [reduceAlong, hslices.bases_eq, hslices.kept_eq, Order.coordinates, List.map_map,
      List.forall₂_map_left_iff, List.forall₂_map_right_iff, List.forall₂_same]
    intro i hi
    exact reduce_slice hlayout hcells hslices (Order.inBox_coords (List.mem_range.mp hi))

/-- There is one result for each choice of coordinates on the kept axes. -/
theorem length_reduceAlong (haxes : axes ≠ []) {split : AxisSplit}
    (hsplit : layout.splitAlong axes = .ok split) :
    (reduceAlong workers strategy cells layout requested split).length =
      volume (across axes layout.extents) := by
  have hresults : List.Forall₂ _ _ (reduceAlong workers strategy cells layout requested split) :=
    forall₂_reduceAlong hlayout hcells haxes hsplit
  have hlength := hresults.length_eq
  simpa [Order.coordinates] using hlength.symm

/-- If accumulators can be joined, each result is that of one fold. -/
theorem forall₂_reduceAlong_of_joins (hjoins : strategy.Joins) (haxes : axes ≠ [])
    {split : AxisSplit} (hsplit : layout.splitAlong axes = .ok split) :
    List.Forall₂
      (fun outer result ↦ ∃ elements,
        layout.Holds cells (layout.coordinates.filter fun coords ↦ across axes coords = outer)
          elements ∧
        result = strategy.finalize (strategy.fold elements) elements.length)
      (Order.rowMajor.coordinates (across axes layout.extents))
      (reduceAlong workers strategy cells layout requested split) := by
  refine (forall₂_reduceAlong hlayout hcells haxes hsplit).imp fun outer result h ↦ ?_
  obtain ⟨elements, hholds, hresult⟩ := h
  exact ⟨elements, hholds, hresult.eq_fold hjoins⟩

/-- If accumulators can be joined, the folds of the elements with the coordinates of each result
leave only one list of results. -/
theorem eq_reduceAlong_of_joins (hjoins : strategy.Joins) (haxes : axes ≠ [])
    {split : AxisSplit} (hsplit : layout.splitAlong axes = .ok split) {results : List γ}
    (hresults : List.Forall₂
      (fun outer result ↦ ∃ elements,
        layout.Holds cells (layout.coordinates.filter fun coords ↦ across axes coords = outer)
          elements ∧
        result = strategy.finalize (strategy.fold elements) elements.length)
      (Order.rowMajor.coordinates (across axes layout.extents)) results) :
    results = reduceAlong workers strategy cells layout requested split := by
  have hunique : Relator.RightUnique fun outer result ↦ ∃ elements,
      layout.Holds cells (layout.coordinates.filter fun coords ↦ across axes coords = outer)
        elements ∧
      result = strategy.finalize (strategy.fold elements) elements.length := by
    rintro outer _ _ ⟨left, hleft, rfl⟩ ⟨right, hright, rfl⟩
    rw [hleft.unique hright]
  exact hunique.forall₂ hresults
    (forall₂_reduceAlong_of_joins hlayout hcells hjoins haxes hsplit)

/-- If accumulators can be joined, neither the workers nor their budget matter. -/
theorem reduceAlong_eq_of_joins (hjoins : strategy.Joins) (haxes : axes ≠ [])
    {split : AxisSplit} (hsplit : layout.splitAlong axes = .ok split) (others : Workers)
    (wanted : Option Nat) :
    reduceAlong others strategy cells layout wanted split =
      reduceAlong workers strategy cells layout requested split :=
  eq_reduceAlong_of_joins hlayout hcells hjoins haxes hsplit
    (forall₂_reduceAlong_of_joins hlayout hcells hjoins haxes hsplit)

end

/-- A split of an array along some of its axes gives one result for each choice of coordinates on
the kept axes, in row-major order: what becomes of the elements with these coordinates, in the order
of the array. With all axes there is one result, that of all elements, and without any axis each
element is finalized by itself. -/
theorem reduceAlong_split (hlayout : layout.Addressable)
    (hcells : layout.requiredCells ≤ cells.size) {split : AxisSplit}
    (hsplit : layout.splitAlong axes = .ok split) :
    match split with
    | .elements =>
        ∃ elements, layout.Holds cells layout.coordinates elements ∧
          reduceAlong workers strategy cells layout requested split =
            elements.map fun element ↦
              strategy.finalize (strategy.combine strategy.seed element) 1
    | .whole =>
        ∃ elements result, layout.Holds cells layout.coordinates elements ∧
          ReducesTo workers strategy requested elements result ∧
          reduceAlong workers strategy cells layout requested split = [result]
    | .slices _ =>
        List.Forall₂
          (fun outer result ↦ ∃ elements,
            layout.Holds cells (layout.coordinates.filter fun coords ↦ across axes coords = outer)
              elements ∧
            ReducesTo workers strategy requested elements result)
          (Order.rowMajor.coordinates (across axes layout.extents))
          (reduceAlong workers strategy cells layout requested split) := by
  cases split with
  | elements =>
      refine ⟨_, holds_gather fun _ ↦ offsetAt_lt_size hlayout hcells, ?_⟩
      rw [reduceAlong, hlayout.offsets_eq]
  | whole =>
      obtain ⟨elements, hholds, hresult⟩ := reduce_whole hlayout hcells
      exact ⟨elements, _, hholds, hresult, rfl⟩
  | slices slices =>
      rcases splitAlong_eq_ok hsplit with ⟨_, _, ⟨_, heq⟩ | ⟨_, _, heq⟩ | ⟨haxes, _⟩⟩
      · cases heq
      · cases heq
      · exact forall₂_reduceAlong hlayout hcells haxes hsplit

/-- A pair of numbers, twice. -/
def repeatedPair : Layout :=
  make [2, 2] [0, 1] .columnMajor .i32

/-- Three workers collect the elements of the columns of a column-major array with a repeated
row. -/
theorem reduceAlong_split_repeated :
    repeatedPair.Addressable ∧
      repeatedPair.requiredCells ≤ #[10, 20].size ∧
      repeatedPair.splitAlong [0] = .ok (.slices ⟨make [2] [0] .columnMajor .i32, [0, 1], [2]⟩) ∧
      List.Forall₂
        (fun outer result ↦ ∃ elements,
          repeatedPair.Holds #[10, 20]
            (repeatedPair.coordinates.filter fun coords ↦ across [0] coords = outer) elements ∧
          ReducesTo .small Strategy.listing none elements result)
        [[0], [1]] [([10, 10], 2), ([20, 20], 2)] := by
  have hlayout : strided [2, 2] [0, 1] .columnMajor .i32 = .ok repeatedPair := rfl
  have hcells : repeatedPair.requiredCells ≤ #[10, 20].size := by decide
  have hsplit : repeatedPair.splitAlong [0] =
      .ok (.slices ⟨make [2] [0] .columnMajor .i32, [0, 1], [2]⟩) := rfl
  refine ⟨addressable_of_strided hlayout, hcells, hsplit, ?_⟩
  exact reduceAlong_split (addressable_of_strided hlayout) hcells hsplit

end

end ArrayEngine
