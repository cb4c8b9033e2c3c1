import ArrayEngine.Proofs.Layout.SplitSuccess
import ArrayEngine.Proofs.Reduction.Integer
import ArrayEngine.Proofs.Tensor

/-!
# Arrays that hold the same elements

Two layouts can place the elements of an array quite differently: with other strides, with gaps, in
buffers of other lengths. `Layout.Agree` says that two buffers, each read through its own layout,
hold the same element at all coordinates, and `Tensor.SameElements` says so of two arrays. If both
number their elements in the same order, they have the same list of elements (`gather_offsets_eq`)
and the engine has the same results for both (`reduceAlong_eq`). The results of integer reductions
along some axes are the same even if the orders differ (`reduceAlong_eq_of_isInt`).
-/

namespace ArrayEngine

open Layout

/-- Two buffers, each read through its own layout, hold the same element at all coordinates. -/
structure Layout.Agree {α : Type} (layout other : Layout) (cells others : Array α) : Prop where
  extents_eq : layout.extents = other.extents
  getElem?_eq {coords : List Nat} : InBox layout.extents coords →
    cells[layout.offsetAt coords]? = others[other.offsetAt coords]?

/-! ## Elements at coordinates -/

section

variable {α : Type} {layout other : Layout} {cells others : Array α} {coords : List (List Nat)}
  {elements : List α}

/-- What one of the buffers holds at some coordinates, the other one holds there too. -/
theorem Layout.Agree.holds_iff (h : layout.Agree other cells others)
    (hbox : ∀ c ∈ coords, InBox layout.extents c) :
    layout.Holds cells coords elements ↔ other.Holds others coords elements := by
  have hcells : (coords.map fun c ↦ cells[layout.offsetAt c]?) =
      coords.map fun c ↦ others[other.offsetAt c]? :=
    List.map_congr_left fun c hc ↦ h.getElem?_eq (hbox c hc)
  rw [Holds, Holds, hcells]

/-- At the same coordinates in another order there are the same elements in another order. -/
theorem Layout.Holds.perm {places : List (List Nat)} {found : List α}
    (hperm : coords.Perm places) (h : layout.Holds cells coords elements)
    (hfound : layout.Holds cells places found) : elements.Perm found := by
  rw [← List.map_perm_map_iff (Option.some_injective α), ← h, ← hfound]
  exact hperm.map _

/-- In both orders there are the same coordinates. -/
theorem Layout.Agree.perm_coordinates (h : layout.Agree other cells others) :
    layout.coordinates.Perm other.coordinates :=
  (List.perm_ext_iff_of_nodup layout.nodup_coordinates other.nodup_coordinates).mpr fun coords ↦ by
    rw [mem_coordinates, mem_coordinates, h.extents_eq]

end

/-! ## Results -/

section

variable {α β γ : Type} {layout other : Layout} {cells others : Array α}
  (h : layout.Agree other cells others)
  (hlayout : layout.Addressable) (hcells : layout.requiredCells ≤ cells.size)
  (hother : other.Addressable) (hothers : other.requiredCells ≤ others.size)

include h hlayout hcells hother hothers

/-- In the same order, both arrays have the same elements. -/
theorem Layout.Agree.gather_offsets_eq (horder : layout.order = other.order) :
    gather cells layout.offsets = gather others other.offsets := by
  have hcoordinates : layout.coordinates = other.coordinates := by
    rw [coordinates, coordinates, horder, h.extents_eq]
  have hholds : layout.Holds cells layout.coordinates (gather cells layout.offsets) := by
    rw [hlayout.offsets_eq]
    exact holds_gather fun _ ↦ offsetAt_lt_size hlayout hcells
  rw [h.holds_iff fun _ ↦ mem_coordinates.mp, hcoordinates] at hholds
  rw [hother.offsets_eq]
  exact hholds.unique (holds_gather fun _ ↦ offsetAt_lt_size hother hothers)

variable {axes : List Nat} {split split' : AxisSplit} (haxes : axes ≠ [])
  (hsplit : layout.splitAlong axes = .ok split) (hsplit' : other.splitAlong axes = .ok split')

include haxes hsplit hsplit'

/-- In the same order, the engine has the same results for both arrays. -/
theorem Layout.Agree.reduceAlong_eq (horder : layout.order = other.order) (workers : Workers)
    (strategy : Strategy α β γ) (requested : Option Nat) :
    reduceAlong workers strategy cells layout requested split =
      reduceAlong workers strategy others other requested split' := by
  have hcoordinates : layout.coordinates = other.coordinates := by
    rw [coordinates, coordinates, horder, h.extents_eq]
  -- Each result is known by the elements with its coordinates, which are those of both arrays.
  have hunique : Relator.RightUnique fun outer result ↦ ∃ elements,
      other.Holds others (other.coordinates.filter fun coords ↦ across axes coords = outer)
        elements ∧
      ReducesTo workers strategy requested elements result := by
    intro outer left right hleft hright
    obtain ⟨elements, hholds, hleft⟩ := hleft
    obtain ⟨found, hfound, hright⟩ := hright
    obtain rfl := hholds.unique hfound
    exact (hleft.eq_reduce layout.dtype).trans (hright.eq_reduce layout.dtype).symm
  refine hunique.forall₂ ?_ (forall₂_reduceAlong hother hothers haxes hsplit')
  rw [← h.extents_eq]
  refine (forall₂_reduceAlong hlayout hcells haxes hsplit).imp
    fun outer result hfound ↦ ?_
  obtain ⟨elements, hholds, hresult⟩ := hfound
  refine ⟨elements, ?_, hresult⟩
  rw [← hcoordinates]
  exact (h.holds_iff fun _ hmem ↦ mem_coordinates.mp (List.mem_of_mem_filter hmem)).mp hholds

end

/-- The results of an integer reduction along some axes are the same for both arrays, whatever their
orders. -/
theorem Layout.Agree.reduceAlong_eq_of_isInt {reduction : Reduction} {dtype : DType}
    (hint : dtype.isInt) (hsame : reduction.outputRule = .sameAsInput) {layout other : Layout}
    {cells others : Array (Scalar dtype)} (h : layout.Agree other cells others)
    (hlayout : layout.Addressable) (hcells : layout.requiredCells ≤ cells.size)
    (hother : other.Addressable) (hothers : other.requiredCells ≤ others.size) {axes : List Nat}
    {split split' : AxisSplit} (haxes : axes ≠ []) (hsplit : layout.splitAlong axes = .ok split)
    (hsplit' : other.splitAlong axes = .ok split') (workers : Workers) (requested : Option Nat) :
    reduceAlong workers (reduction.intStrategy dtype) cells layout requested split =
      reduceAlong workers (reduction.intStrategy dtype) others other requested split' := by
  have hjoins := Reduction.joins_intStrategy hint reduction
  refine eq_reduceAlong_of_joins hother hothers hjoins haxes hsplit' ?_
  rw [← h.extents_eq]
  refine (forall₂_reduceAlong_of_joins hlayout hcells hjoins haxes hsplit).imp
    fun outer result hresult ↦ ?_
  obtain ⟨elements, hholds, rfl⟩ := hresult
  -- The other array has the same elements at the coordinates, in another order.
  have hperm := h.perm_coordinates.filter fun coords ↦ across axes coords = outer
  have hbox : ∀ c ∈ layout.coordinates.filter fun coords ↦ across axes coords = outer,
      InBox layout.extents c :=
    fun _ hmem ↦ mem_coordinates.mp (List.mem_of_mem_filter hmem)
  have hfound : other.Holds others
      (other.coordinates.filter fun coords ↦ across axes coords = outer) _ :=
    holds_gather fun _ hmem ↦ offsetAt_lt_size hother hothers (List.mem_of_mem_filter hmem)
  have helements := ((h.holds_iff hbox).mp hholds).perm hperm hfound
  exact ⟨_, hfound, Reduction.fold_perm hint hsame helements⟩

/-! ## Arrays -/

namespace Tensor

/-- The bits at given coordinates as a natural number, if the array has a cell there. -/
def patternAt? (tensor : Tensor) (coords : List Nat) : Option Nat :=
  (tensor.storage.cells[tensor.layout.offsetAt coords]?).map Scalar.pattern

/-- Two arrays of one element type and the same extents hold the same bits at all coordinates. The
layouts and the buffers may differ otherwise. -/
structure SameElements (tensor other : Tensor) : Prop where
  dtype_eq : tensor.dtype = other.dtype
  extents_eq : tensor.extents = other.extents
  patternAt?_eq {coords : List Nat} : InBox tensor.extents coords →
    tensor.patternAt? coords = other.patternAt? coords

/-- The buffers of two such arrays are of one element type and agree. -/
theorem SameElements.exists_agree {tensor other : Tensor} (h : tensor.SameElements other)
    (htensor : tensor.Valid) (hother : other.Valid) :
    ∃ (dtype : DType) (cells others : Array (Scalar dtype)),
      tensor.storage = ⟨dtype, cells⟩ ∧ other.storage = ⟨dtype, others⟩ ∧
        tensor.layout.requiredCells ≤ cells.size ∧ other.layout.requiredCells ≤ others.size ∧
        tensor.layout.Agree other.layout cells others := by
  obtain ⟨layout, ⟨dtype, cells⟩⟩ := tensor
  obtain ⟨layout', ⟨dtype', others⟩⟩ := other
  obtain rfl : dtype' = dtype := hother.dtype_eq.trans (h.dtype_eq.symm.trans htensor.dtype_eq.symm)
  refine ⟨dtype', cells, others, rfl, rfl, htensor.requiredCells_le, hother.requiredCells_le,
    h.extents_eq, fun hbox ↦ ?_⟩
  exact Option.map_injective Scalar.pattern_injective (h.patternAt?_eq hbox)

/-- Two such arrays with elements and not too many axes can be split along the same axes, and fail
alike along others. -/
theorem SameElements.splitAlong_cases {tensor other : Tensor} (h : tensor.SameElements other)
    (htensor : tensor.Valid) (hother : other.Valid) (hrank : tensor.layout.rank ≤ maxRank)
    (hpos : 0 < tensor.size) (axes : List Nat) :
    (∃ error, tensor.layout.splitAlong axes = .error error ∧
        other.layout.splitAlong axes = .error error) ∨
      ∃ split split', tensor.layout.splitAlong axes = .ok split ∧
        other.layout.splitAlong axes = .ok split' := by
  have hextents : tensor.layout.extents = other.layout.extents := h.extents_eq
  have hranks : tensor.layout.rank = other.layout.rank := congrArg List.length hextents
  have hpos' : 0 < other.layout.size := by
    rw [Layout.size, ← hextents]
    exact hpos
  cases hmask : axisMask axes tensor.layout.rank with
  | error error =>
      exact .inl ⟨error, splitAlong_of_axisMask_error hmask,
        splitAlong_of_axisMask_error (hranks ▸ hmask)⟩
  | ok mask =>
      obtain ⟨split, hsplit⟩ := htensor.addressable.exists_splitAlong hrank hpos hmask
      obtain ⟨split', hsplit'⟩ :=
        hother.addressable.exists_splitAlong (hranks ▸ hrank) hpos' (hranks ▸ hmask)
      exact .inr ⟨split, split', hsplit, hsplit'⟩

end Tensor

end ArrayEngine
