import ArrayEngine.Proofs.Layout.SplitFailure
import ArrayEngine.Proofs.Operation.Conversion

/-!
# Reductions along all axes

A reduction that is given no axes reduces all of them. If the array has an axis, this is one
reduction of the list of its elements, and neither the number of the axes nor the layout matters. An
array without axes has none to reduce, so that its single element is converted as it is along no
axis. `run_all_axes` states both; the two differ if the result for a single element is not the
element, as for the absolute value of a negative integer (`run_all_axes_scalar`).
-/

namespace ArrayEngine

open Layout Reduction

/-- Along all axes, if there are any, the kernel of a reduction writes one result for all elements
of the array. -/
theorem Kernel.writes_reduceWith_whole {input output : DType} {β : Type}
    {strategy : Strategy (Scalar input) β (Scalar output)} {workers : Workers} {opcode : Nat}
    {invocation : Invocation} {source : Tensor} (hsource : invocation.input 0 = .ok source)
    (haxes : invocation.params.axes = none) (hrank : 0 < source.layout.rank)
    {cells : Array (Scalar input)} (hcells : source.storage = ⟨input, cells⟩) :
    (Kernel.reduceWith strategy).Writes workers opcode invocation
      [ArrayEngine.reduce workers strategy cells (.ofLayout source.layout 0) none] := by
  have hresolved : resolveAxes invocation.params.axes source.layout.rank =
      List.range source.layout.rank := by
    rw [haxes]
    rfl
  have hsome : List.range source.layout.rank ≠ [] := by simpa using Nat.ne_of_gt hrank
  intro tensor
  rw [← invocation.input_bindOutput 0 tensor] at hsource
  exact reduceWith_eq_updateOutput hsource hresolved hsome (splitAlong_range hrank)
    (by rw [hcells, Storage.cells?_self])

/-- The conversion of a single element is its reduction, except that a negative integer has another
absolute value. -/
theorem Reduction.HasStrategy.transferred_eq_iff {reduction : Reduction} {input output : DType}
    {platform : Platform} {β : Type} {strategy : Strategy (Scalar input) β (Scalar output)}
    (h : reduction.HasStrategy platform strategy) (hint : input.isInt)
    (hsame : reduction.outputRule = .sameAsInput) (x : Scalar input) :
    x.transferred platform output = strategy.finalize (strategy.combine strategy.seed x) 1 ↔
      (reduction = .absMax ∨ reduction = .absMin → 0 ≤ x.value) := by
  cases h with
  | integer =>
      have htransferred : x.transferred platform input = x := dif_pos rfl
      rw [htransferred, eq_comm]
      exact combine_seed_eq_iff hint hsame x
  | float hother => exact absurd hint (hother hsame)

namespace Executor

variable {platform : Platform} {workers : Workers} {reduction : Reduction}
  {invocation after : Invocation} {input output : Tensor} {kernel : Kernel} {β : Type}
  {strategy : Strategy (Scalar input.dtype) β (Scalar output.dtype)}

section

variable (h : Made platform workers reduction.opcode invocation input output kernel)
  (haxes : invocation.params.axes = none)

include h haxes

/-- If there is an axis, the output holds the result for all elements of the input. -/
theorem Made.toList?_of_all_axes (hrank : 0 < input.layout.rank)
    (hstrategy : reduction.HasStrategy workers.platform strategy)
    {cells : Array (Scalar input.dtype)} (hcells : input.storage = ⟨input.dtype, cells⟩) :
    output.toList? output.dtype =
      .ok [reduce workers strategy cells (.ofLayout input.layout 0) none] := by
  obtain ⟨hinput, -, hkernel⟩ := h.of_reduction
  have hwhole := hstrategy.kernel_eq hkernel
  exact h.toList?_eq ((Kernel.writes_reduceWith_whole hinput haxes hrank hcells).of_eq hwhole)

/-- If there is no axis, the output holds the only element of the input, converted. -/
theorem Made.toList?_of_rank_eq_zero (hplace : invocation.inPlace = false)
    (hrank : input.layout.rank = 0) {x : Scalar input.dtype}
    (helements : input.toList? input.dtype = .ok [x]) :
    output.toList? output.dtype = .ok [x.transferred workers.platform output.dtype] := by
  obtain ⟨hinput, -, hkernel⟩ := h.of_reduction
  have hresolved : resolveAxes invocation.params.axes input.layout.rank = [] := by
    rw [haxes, hrank]
    rfl
  exact h.toList?_of_writes_or_refuses
    (Reduction.writes_transferred hplace hinput rfl helements hresolved hkernel)

end

/-- A reduction that is given no axes and succeeds leaves an array of a single element, without axes
or with as many as the input if they are kept. If the input has an axis, the element is the result
of the engine for the whole input by the strategy of the reduction, and depends on nothing but the
list of its elements. If the input has no axes, the element is the conversion of its only element,
while the result of the engine takes this element in once: for integers that keep their type the two
differ exactly if a negative one is asked for its absolute value. -/
theorem run_all_axes (hinput : invocation.input 0 = .ok input) (hvalid : input.Valid)
    (haxes : invocation.params.axes = none) (hplace : invocation.inPlace = false)
    (hfree : invocation.boundOutput? 0 = none)
    (hrun : (Executor.mk (.builtin platform) workers).run reduction.opcode invocation =
      .ok () after) :
    ∃ output cells elements, after.output 0 = .ok output ∧ output.Valid ∧
      output.layout = .packed (if invocation.params.keepDims then
        List.replicate input.layout.rank 1 else []) .rowMajor
          (invocation.params.dtype.getD (reduction.defaultOutput input.dtype)) ∧
      input.storage = ⟨input.dtype, cells⟩ ∧ input.toList? input.dtype = .ok elements ∧
      (∃ (β : Type) (strategy : Strategy (Scalar input.dtype) β (Scalar output.dtype)),
        reduction.HasStrategy workers.platform strategy) ∧
      ∀ {β : Type} {strategy : Strategy (Scalar input.dtype) β (Scalar output.dtype)},
        reduction.HasStrategy workers.platform strategy →
          (∃ kernel, reduction.kernel? platform input.dtype output.dtype = some kernel ∧
            kernel workers reduction.opcode =
              Kernel.reduceWith strategy workers reduction.opcode) ∧
          reduce workers strategy cells (.ofLayout input.layout 0) none =
            reduceList workers strategy elements none ∧
          (0 < input.layout.rank → output.toList? output.dtype =
            .ok [reduce workers strategy cells (.ofLayout input.layout 0) none]) ∧
          (input.layout.rank = 0 → ∃ x, elements = [x] ∧
            output.toList? output.dtype = .ok [x.transferred workers.platform output.dtype] ∧
            reduce workers strategy cells (.ofLayout input.layout 0) none =
              strategy.finalize (strategy.combine strategy.seed x) 1 ∧
            (input.dtype.isInt → reduction.outputRule = .sameAsInput →
              (x.transferred workers.platform output.dtype =
                  reduce workers strategy cells (.ofLayout input.layout 0) none ↔
                (reduction = .absMax ∨ reduction = .absMin → 0 ≤ x.value)))) := by
  obtain ⟨output, kernel, rfl, hmade⟩ := exists_made hinput hvalid hplace hfree hrun
  obtain ⟨elements, helements, hlength⟩ := hvalid.exists_toList? rfl
  obtain ⟨cells, hcells, hgather⟩ := (Tensor.toList?_eq_ok_iff hvalid.addressable).mp helements
  obtain ⟨-, hlayout, hkernel⟩ := hmade.of_reduction
  refine ⟨output, cells, elements, Invocation.output_bindOutput hplace, hmade.valid, ?_, hcells,
    helements, exists_hasStrategy workers.platform fun hsame ↦ eq_of_kernel? hsame hkernel, ?_⟩
  · rw [hlayout, outputLayout, haxes]
    exact congrArg (packed · _ _) (outputExtents_range _ _)
  · intro β strategy hstrategy
    have hlist : reduce workers strategy cells (.ofLayout input.layout 0) none =
        reduceList workers strategy elements none := by
      rw [reduce_ofLayout workers strategy none hvalid.addressable, hgather]
      · simp
      · intro offset hoffset
        rw [Nat.zero_add]
        exact hvalid.offset_lt_cells hcells hoffset
    refine ⟨⟨kernel, hkernel, hstrategy.kernel_eq hkernel⟩, hlist, fun hrank ↦
      hmade.toList?_of_all_axes haxes hrank hstrategy hcells, fun hrank ↦ ?_⟩
    have hone : input.size = 1 := by
      rw [Tensor.size, size, List.length_eq_zero_iff.mp hrank, volume_nil]
    obtain ⟨x, rfl⟩ := List.length_eq_one_iff.mp (hlength.trans hone)
    rw [reduceList_singleton] at hlist
    refine ⟨x, rfl, hmade.toList?_of_rank_eq_zero haxes hplace hrank helements, hlist, ?_⟩
    intro hint hsame
    rw [hlist]
    exact hstrategy.transferred_eq_iff hint hsame x

/-- A column-major array with a gap between its columns, which holds the least byte. -/
def leastByte : Tensor :=
  .gapped .columnMajor ⟨1⟩ ⟨-128⟩ ⟨-3⟩ ⟨4⟩

/-- The largest absolute value of the array, by a reduction that keeps the dimensions. The least
byte has none of its own. -/
theorem run_all_axes_gapped :
    leastByte.Valid ∧
      ∃ output, (Invocation.mk [leastByte] [some ⟨packed [1, 1] .rowMajor .i8,
          ⟨.i8, #[⟨127⟩]⟩⟩] ⟨none, true, none⟩ false).output 0 = .ok output ∧
        output.layout = packed [1, 1] .rowMajor .i8 ∧
        output.toList? .i8 = .ok [reduceList .small
          (absMax.intStrategy .i8) [⟨1⟩, ⟨-128⟩, ⟨-3⟩, ⟨4⟩] none] := by
  have hvalid : leastByte.Valid := Tensor.valid_gapped _ _ _ _ _
  have hrun : Executor.small.run absMax.opcode ⟨[leastByte], [], ⟨none, true, none⟩, false⟩ =
      .ok () ⟨[leastByte], [some ⟨packed [1, 1] .rowMajor .i8, ⟨.i8, #[⟨127⟩]⟩⟩],
        ⟨none, true, none⟩, false⟩ := rfl
  obtain ⟨output, cells, elements, houtput, -, hlayout, hcells, helements, -, hresult⟩ :=
    run_all_axes rfl hvalid rfl rfl rfl hrun
  cases hcells
  cases helements
  cases houtput
  obtain ⟨-, hlist, hwhole, -⟩ := hresult (.integer rfl rfl)
  exact ⟨hvalid, _, rfl, hlayout, hlist ▸ hwhole (by decide)⟩

/-- The number -3, along no axis or along one. -/
def minusThree (extents : List Nat) (outputs : List (Option Tensor)) : Invocation :=
  ⟨[⟨packed extents .rowMajor .i8, ⟨.i8, #[⟨-3⟩]⟩⟩], outputs, ⟨none, false, none⟩, false⟩

/-- The largest absolute value of an array without axes is its only element, although the engine
finds another one for it, and although the same element along an axis has this one. -/
theorem run_all_axes_scalar :
    absMax.HasStrategy Platform.small (absMax.intStrategy .i8) ∧
      Executor.small.run absMax.opcode (minusThree [] []) =
        .ok () (minusThree [] [some ⟨packed [] .rowMajor .i8, ⟨.i8, #[⟨-3⟩]⟩⟩]) ∧
      reduce .small (absMax.intStrategy .i8) #[⟨-3⟩]
          (.ofLayout (packed [] .rowMajor .i8) 0) none = ⟨3⟩ ∧
      Executor.small.run absMax.opcode (minusThree [1] []) =
        .ok () (minusThree [1] [some ⟨packed [] .rowMajor .i8, ⟨.i8, #[⟨3⟩]⟩⟩]) ∧
      (⟨-3⟩ : Scalar .i8) ≠ ⟨3⟩ :=
  ⟨.integer rfl rfl, rfl, rfl, rfl, by decide⟩

end Executor

end ArrayEngine
