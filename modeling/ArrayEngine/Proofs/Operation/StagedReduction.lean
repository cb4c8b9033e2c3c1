import ArrayEngine.Proofs.Operation.IntegerReduction
import ArrayEngine.Proofs.Reduction.Staged

/-!
# Staged reductions from end to end

If the reduced axes are kept with the extent one, the output of a reduction of integers can be
reduced again along other axes. `run_staged` says that a run along some axes and a second run along
further axes leave the same array as one run along all of them.
-/

namespace ArrayEngine

open Layout Reduction

/-- The invocation asks for a reduction of an array along some axes which are kept with the extent
one. The output is yet to be made. -/
structure Invocation.KeepsAxes (invocation : Invocation) (input : Tensor) (axes : List Nat) :
    Prop where
  input_eq : invocation.input 0 = .ok input
  axes_eq : invocation.params.axes = some axes
  keepDims_eq : invocation.params.keepDims = true
  inPlace_eq : invocation.inPlace = false
  boundOutput?_eq : invocation.boundOutput? 0 = none

variable {platform : Platform} {reduction : Reduction}

/-- A run of a reduction of integers leaves the results of one stage. -/
theorem exists_keptResults {workers : Workers} {invocation after : Invocation} {layout : Layout}
    {cells : Array (Scalar layout.dtype)} {axes : List Nat} (hint : layout.dtype.isInt)
    (hsame : reduction.outputRule = .sameAsInput) (hlayout : layout.Addressable)
    (hcells : layout.requiredCells ≤ cells.size) (hne : axes ≠ [])
    (h : invocation.KeepsAxes ⟨layout, ⟨layout.dtype, cells⟩⟩ axes)
    (hrun : (Executor.mk (.builtin platform) workers).run reduction.opcode invocation =
      .ok () after) :
    ∃ results, reduction.KeptResults layout cells axes results ∧
      volume (outputExtents layout.extents axes true) < Size.limit ∧
      results.length = volume (outputExtents layout.extents axes true) ∧
      after.output 0 =
        .ok (.ofElements results (outputExtents layout.extents axes true) .rowMajor) := by
  have haxes : resolveAxes invocation.params.axes layout.rank = axes := by
    rw [h.axes_eq]
    rfl
  obtain ⟨split, results, hsplit, rfl, hlimit, hlength, houtput⟩ :=
    exists_reduceAlong_of_run hint hsame haxes rfl h.inPlace_eq h.boundOutput?_eq hne h.input_eq
      hlayout hcells hrun
  rw [h.keepDims_eq] at hlimit hlength houtput
  exact ⟨_, keptResults_reduceAlong hint hlayout hcells hne hsplit, hlimit, hlength, houtput⟩

/-- Reducing integers along some axes, and what is left along further ones, leaves the same array as
reducing them along all these axes at once, whatever workers there are for each of the three
runs. -/
theorem run_staged {workers workers₁ workers₂ : Workers} {input middle : Tensor}
    {direct first second after after₁ after₂ : Invocation} {axes further : List Nat}
    (hvalid : input.Valid) (hint : input.dtype.isInt) (hsame : reduction.outputRule = .sameAsInput)
    (haxes : axes ≠ []) (hfurther : further ≠ [])
    (hdirect : direct.KeepsAxes input (axes ++ further)) (hfirst : first.KeepsAxes input axes)
    (hsecond : second.KeepsAxes middle further)
    (hrun : (Executor.mk (.builtin platform) workers).run reduction.opcode direct = .ok () after)
    (hrun₁ : (Executor.mk (.builtin platform) workers₁).run reduction.opcode first = .ok () after₁)
    (hmiddle : after₁.output 0 = .ok middle)
    (hrun₂ : (Executor.mk (.builtin platform) workers₂).run reduction.opcode second =
      .ok () after₂) :
    ∃ output, after.output 0 = .ok output ∧ after₂.output 0 = .ok output := by
  obtain ⟨layout, ⟨dtype, cells⟩⟩ := input
  obtain rfl : dtype = layout.dtype := hvalid.dtype_eq
  have hlayout : layout.Addressable := hvalid.addressable
  have hcells : layout.requiredCells ≤ cells.size := hvalid.requiredCells_le
  have hall : axes ++ further ≠ [] := fun hnil ↦ haxes (List.append_eq_nil_iff.mp hnil).1
  obtain ⟨results, hresults, _, _, houtput⟩ :=
    exists_keptResults hint hsame hlayout hcells hall hdirect hrun
  obtain ⟨results₁, hresults₁, hlimit, hlength, houtput₁⟩ :=
    exists_keptResults hint hsame hlayout hcells haxes hfirst hrun₁
  -- The second run reduces an array without gaps that holds the results of the first one.
  obtain rfl : _ = middle := Except.ok.inj (houtput₁.symm.trans hmiddle)
  have hpacked := Tensor.valid_ofElements hlimit hlength .rowMajor
  have hint₂ : (packed (outputExtents layout.extents axes true) .rowMajor
      layout.dtype).dtype.isInt := hint
  obtain ⟨results₂, hresults₂, _, _, houtput₂⟩ :=
    exists_keptResults hint₂ hsame hpacked.addressable hpacked.requiredCells_le hfurther hsecond
      hrun₂
  have hstaged := KeptResults.staged hint hsame hlayout hcells hlimit hresults₁ hresults₂
  refine ⟨_, houtput, ?_⟩
  rw [houtput₂, hresults.unique hstaged, ← outputExtents_append]
  rfl

/-- A column-major array with a gap that holds the least byte. -/
def leastFirst : Tensor :=
  .gapped .columnMajor ⟨128⟩ ⟨3⟩ ⟨5⟩ ⟨249⟩

/-- The largest absolute values of an array along axes that are kept. -/
def keptAbsMax (input : Tensor) (axes : List Nat) : Invocation :=
  ⟨[input], [], ⟨some axes, true, none⟩, false⟩

/-- The largest absolute value of the array, along both axes at once by one worker and along one
after the other by three and by two. It is that of the least byte, which is cut off. -/
theorem run_staged_saturated :
    leastFirst.Valid ∧
      ∃ after after₁ after₂,
        (Executor.mk (.builtin .small) ⟨.small, ⟨some 1, 1⟩, 1⟩).run absMax.opcode
            (keptAbsMax leastFirst [1, 0]) =
          .ok () after ∧
        Executor.small.run absMax.opcode (keptAbsMax leastFirst [1]) = .ok () after₁ ∧
        after₁.output 0 = .ok ⟨packed [2, 1] .rowMajor .i8, ⟨.i8, #[⟨127⟩, ⟨7⟩]⟩⟩ ∧
        (Executor.mk (.builtin .small) ⟨.small, ⟨some 2, 1⟩, 2⟩).run absMax.opcode
            (keptAbsMax ⟨packed [2, 1] .rowMajor .i8, ⟨.i8, #[⟨127⟩, ⟨7⟩]⟩⟩ [0]) =
          .ok () after₂ ∧
        after₂.output 0 = .ok ⟨packed [1, 1] .rowMajor .i8, ⟨.i8, #[⟨127⟩]⟩⟩ ∧
        ∃ output, after.output 0 = .ok output ∧ after₂.output 0 = .ok output := by
  have hvalid : leastFirst.Valid := Tensor.valid_gapped _ _ _ _ _
  have haxes : [1] ≠ [] := List.cons_ne_nil 1 []
  have hfurther : [0] ≠ [] := List.cons_ne_nil 0 []
  refine ⟨hvalid, ?after, ?after₁, ?after₂, ?direct, ?first, ?middle, ?second, ?last,
    run_staged hvalid rfl rfl haxes hfurther ⟨rfl, rfl, rfl, rfl, rfl⟩ ⟨rfl, rfl, rfl, rfl, rfl⟩
      ⟨rfl, rfl, rfl, rfl, rfl⟩ ?direct ?first ?middle ?second⟩
  case direct => rfl
  case first => rfl
  case middle => rfl
  case second => rfl
  case last => rfl

end ArrayEngine
