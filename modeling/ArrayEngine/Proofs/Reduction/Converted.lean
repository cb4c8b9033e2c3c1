import ArrayEngine.Proofs.Reduction.Agreement

/-!
# Sums and products of converted elements

If integers are converted to a type that is no narrower before they are summed up or multiplied, no
digit of the result is lost: converting it back gives the result for the integers in their own type
(`convert_fold`). `map_convert_reduceAlong` says this of the engine, for any array, along any axes
and with any workers. In terms of integers, the two results agree modulo the width of the narrower
type (`forall₂_modEq_reduceAlong`).
-/

namespace ArrayEngine

open Layout

/-- What a buffer holds at coordinates, the buffer of the converted cells holds there converted. -/
theorem Layout.Holds.map {α β : Type} {layout : Layout} {cells : Array α}
    {coords : List (List Nat)} {elements : List α} (h : layout.Holds cells coords elements)
    (f : α → β) : layout.Holds (cells.map f) coords (elements.map f) := by
  have hconverted := congrArg (List.map (Option.map f)) h
  rw [List.map_map, List.map_map] at hconverted
  rw [Holds, List.map_map]
  simpa [Function.comp_def] using hconverted

namespace Reduction

variable {platform : Platform} {reduction : Reduction} {source wide : DType}
  (hreduction : reduction = .sum ∨ reduction = .prod) (hsource : source.isInt)
  (hwide : wide.isInt) (hwidth : source.width ≤ wide.width)

include hreduction

/-- Sums and products have the type of the elements. -/
theorem outputRule_of_sum_or_prod : reduction.outputRule = .sameAsInput := by
  rcases hreduction with rfl | rfl
  · rfl
  · rfl

include hsource hwide

theorem convert_seed :
    (reduction.intStrategy wide).seed.convert platform source =
      (reduction.intStrategy source).seed := by
  rcases hreduction with rfl | rfl
  · exact Scalar.convert_zero hwide hsource
  · exact Scalar.convert_one hwide hsource

include hwidth

theorem convert_combine (acc x : Scalar wide) :
    ((reduction.intStrategy wide).combine acc x).convert platform source =
      (reduction.intStrategy source).combine (acc.convert platform source)
        (x.convert platform source) := by
  rcases hreduction with rfl | rfl
  · exact Scalar.convert_add hwide hsource hwidth acc x
  · exact Scalar.convert_mul hwide hsource hwidth acc x

/-- The accumulator of converted elements, converted back, is that of the elements. -/
theorem convert_fold (elements : List (Scalar source)) :
    ((reduction.intStrategy wide).fold (elements.map (Scalar.convert platform wide))).convert
        platform source =
      (reduction.intStrategy source).fold elements := by
  induction elements using List.reverseRecOn with
  | nil => exact convert_seed hreduction hsource hwide
  | append_singleton elements x ih =>
      rw [List.map_append, Strategy.fold_append, Strategy.fold_append]
      show ((reduction.intStrategy wide).combine _ (x.convert platform wide)).convert platform
        source = _
      rw [convert_combine hreduction hsource hwide hwidth, ih,
        Scalar.convert_convert_self hsource hwide x hwidth]
      rfl

/-- The results of the engine for the converted cells of an array, converted back, are those for its
own cells. -/
theorem map_convert_reduceAlong {layout : Layout} {cells : Array (Scalar source)}
    (hlayout : layout.Addressable) (hcells : layout.requiredCells ≤ cells.size)
    {axes : List Nat} {split : AxisSplit} (haxes : axes ≠ [])
    (hsplit : layout.splitAlong axes = .ok split) (workers others : Workers)
    (requested wanted : Option Nat) :
    (reduceAlong others (reduction.intStrategy wide) (cells.map (Scalar.convert platform wide))
        layout wanted split).map (Scalar.convert platform source) =
      reduceAlong workers (reduction.intStrategy source) cells layout requested split := by
  have hsize : layout.requiredCells ≤ (cells.map (Scalar.convert platform wide)).size := by
    rwa [Array.size_map]
  refine eq_reduceAlong_of_joins hlayout hcells (joins_intStrategy hsource reduction) haxes hsplit
    (List.forall₂_map_right_iff.mpr ?_)
  refine (forall₂_reduceAlong_of_joins hlayout hsize (joins_intStrategy hwide reduction) haxes
    hsplit).imp fun outer result hresult ↦ ?_
  obtain ⟨converted, hconverted, rfl⟩ := hresult
  have hholds : layout.Holds cells
      (layout.coordinates.filter fun coords ↦ across axes coords = outer) _ :=
    holds_gather fun _ hmem ↦ offsetAt_lt_size hlayout hcells (List.mem_of_mem_filter hmem)
  obtain rfl := hconverted.unique (hholds.map (Scalar.convert platform wide))
  exact ⟨_, hholds, convert_fold hreduction hsource hwide hwidth _⟩

/-- The results for an array and for another one that holds its elements converted agree modulo the
width of the narrower type. -/
theorem forall₂_modEq_reduceAlong {layout other : Layout} {cells : Array (Scalar source)}
    {converted : Array (Scalar wide)}
    (h : layout.Agree other (cells.map (Scalar.convert platform wide)) converted)
    (hlayout : layout.Addressable) (hcells : layout.requiredCells ≤ cells.size)
    (hother : other.Addressable) (hconverted : other.requiredCells ≤ converted.size)
    {axes : List Nat} {split split' : AxisSplit} (haxes : axes ≠ [])
    (hsplit : layout.splitAlong axes = .ok split) (hsplit' : other.splitAlong axes = .ok split')
    (workers others : Workers) (requested wanted : Option Nat) :
    List.Forall₂ (fun result result' ↦ result'.value ≡ result.value [ZMOD 2 ^ source.width])
      (reduceAlong workers (reduction.intStrategy source) cells layout requested split)
      (reduceAlong others (reduction.intStrategy wide) converted other wanted split') := by
  have hsame := outputRule_of_sum_or_prod hreduction
  have hsize : layout.requiredCells ≤ (cells.map (Scalar.convert platform wide)).size := by
    rwa [Array.size_map]
  rw [← h.reduceAlong_eq_of_isInt hwide hsame hlayout hsize hother hconverted haxes hsplit hsplit',
    ← map_convert_reduceAlong hreduction hsource hwide hwidth hlayout hcells haxes hsplit workers
      others requested wanted,
    List.forall₂_map_left_iff, List.forall₂_same]
  intro result _
  exact (Scalar.value_convert hwide hsource result).symm

end Reduction

end ArrayEngine
