import ArrayEngine.Proofs.Operation.Builtin
import ArrayEngine.Proofs.Reduction.Integer

/-!
# Integer reductions from end to end

`run_integer_reduction` says what a checked run of a reduction leaves behind for integers: a
row-major array without gaps that holds at given coordinates the exact result for the elements of
the input with these coordinates on the kept axes, whatever workers there are.
-/

namespace ArrayEngine

open Layout Reduction

variable {platform : Platform} {workers : Workers} {reduction : Reduction}
  {invocation after : Invocation} {input : Tensor} {axes : List Nat}

/-- Every platform computes with integers. -/
theorem Platform.computes_of_isInt (platform : Platform) {dtype : DType} (hint : dtype.isInt) :
    platform.computes dtype := by
  cases dtype <;> first | rfl | exact absurd hint (by decide)

/-- Under its opcode, the kernel of a reduction of integers to their own type has an integer
accumulator. -/
theorem Reduction.kernel_eq_of_isInt {dtype : DType} {kernel : Kernel} (hint : dtype.isInt)
    (hsame : reduction.outputRule = .sameAsInput)
    (h : reduction.kernel? platform dtype dtype = some kernel) (workers : Workers) :
    kernel workers reduction.opcode =
      Kernel.reduceWith (reduction.intStrategy dtype) workers reduction.opcode :=
  (HasStrategy.integer hsame hint).kernel_eq h

/-- The values of an array at coordinates are those of the elements that its buffer holds there. -/
theorem Layout.Holds.map_valueAt? {layout : Layout} {dtype : DType} {cells : Array (Scalar dtype)}
    {coords : List (List Nat)} {elements : List (Scalar dtype)}
    (h : layout.Holds cells coords elements) :
    coords.map (Tensor.mk layout ⟨dtype, cells⟩).valueAt? =
      (elements.map Scalar.value).map some := by
  have hvalues := congrArg (List.map (Option.map Scalar.value)) h
  rw [List.map_map, List.map_map] at hvalues
  rw [List.map_map]
  exact hvalues

section

variable {layout : Layout} {requested : Option DType} (hint : layout.dtype.isInt)
  (hsame : reduction.outputRule = .sameAsInput)
  (haxes : resolveAxes invocation.params.axes layout.rank = axes)
  (hdtype : invocation.params.dtype = requested) (hplace : invocation.inPlace = false)
  (hbound : invocation.boundOutput? 0 = none)

include hint hsame haxes hdtype hplace hbound

omit hint in
/-- The checks for a reduction of integers choose the kernel for the type of the elements, and one
new array. -/
theorem Executor.Prepared.of_integer_reduction {storage : Storage} {operation : Operation}
    {layouts : List Layout} {output : DType} {kernel : Kernel} {fresh : List (Nat × Tensor)}
    (h : Executor.Prepared ⟨.builtin platform, workers⟩ reduction.opcode invocation operation
      ⟨layout, storage⟩ layouts output kernel fresh) :
    reduction.kernel? platform layout.dtype layout.dtype = some kernel ∧
      ∃ tensor, fresh = [(0, tensor)] ∧
        Tensor.zeros workers.platform
          (.packed (outputExtents layout.extents axes invocation.params.keepDims) .rowMajor
            layout.dtype) = .ok tensor := by
  obtain ⟨rfl, hkernel⟩ := h.of_reduction
  have hdefault : reduction.defaultOutput layout.dtype = layout.dtype := by
    rw [defaultOutput, hsame]
  -- There is no kernel for another type than that of the elements.
  obtain rfl : layout.dtype = output := eq_of_kernel? hsame hkernel
  have hresult : reduction.outputLayout layout invocation.params =
      .packed (outputExtents layout.extents axes invocation.params.keepDims) .rowMajor
        (requested.getD layout.dtype) := by
    rw [outputLayout, haxes, hdtype, hdefault]
  have htype : layout.dtype = requested.getD layout.dtype := by
    have houtput := (outputType_of_free hplace hbound _ []).symm.trans h.output_eq
    rw [hresult] at houtput
    exact (Except.ok.inj houtput).symm
  obtain ⟨tensor, hzeros, hfresh⟩ := freshOutputs_singleton hplace hbound h.fresh_eq
  rw [hresult, ← htype] at hzeros
  exact ⟨hkernel, tensor, hfresh, hzeros⟩

/-- A checked run of a reduction of integers leaves the results of the engine in a new array. The
workers do not matter for them. -/
theorem run_eq_bindOutput {cells : Array (Scalar layout.dtype)} (hne : axes ≠ [])
    (hinput : invocation.input 0 = .ok ⟨layout, ⟨layout.dtype, cells⟩⟩)
    (hlayout : layout.Addressable) (hcells : layout.requiredCells ≤ cells.size)
    (hrun : (Executor.mk (.builtin platform) workers).run reduction.opcode invocation =
      .ok () after) :
    ∃ split, layout.splitAlong axes = .ok split ∧
      after = invocation.bindOutput 0
        (.ofElements
          (reduceAlong workers (reduction.intStrategy layout.dtype) cells layout none split)
          (outputExtents layout.extents axes invocation.params.keepDims) .rowMajor) ∧
      ∀ others, others.platform.bufferLimit = workers.platform.bufferLimit →
        (Executor.mk (.builtin platform) others).run reduction.opcode invocation =
          .ok () after := by
  obtain ⟨kernel, fresh, hprepare, hkernel⟩ := Executor.run_eq_ok_iff.mp hrun
  obtain ⟨operation, found, layouts, output, hprepared⟩ := Executor.prepare_eq_ok_iff.mp hprepare
  obtain rfl : _ = found := Except.ok.inj (hinput.symm.trans hprepared.input_eq)
  obtain ⟨hchosen, tensor, rfl, hzeros⟩ :=
    hprepared.of_integer_reduction hsame haxes hdtype hplace hbound
  have hreduces := kernel_eq_of_isInt hint hsame hchosen
  rw [hreduces] at hkernel
  have hsource : (invocation.bindOutput 0 tensor).input 0 = .ok ⟨layout, ⟨layout.dtype, cells⟩⟩ :=
    hinput
  obtain ⟨split, hsplit⟩ := Kernel.exists_split_of_reduceWith hsource haxes hkernel
  -- Other workers run the same kernel on the same array, and leave the same results behind.
  have hleft (others : Workers) :
      Kernel.reduceWith (reduction.intStrategy layout.dtype) others reduction.opcode
          (invocation.bindOutput 0 tensor) =
        .ok () (invocation.bindOutput 0
          (.ofElements
            (reduceAlong workers (reduction.intStrategy layout.dtype) cells layout none split)
            (outputExtents layout.extents axes invocation.params.keepDims) .rowMajor)) := by
    rw [Kernel.reduceWith_bindOutput hplace hinput haxes hne hlayout hcells hsplit hzeros,
      reduceAlong_eq_of_joins hlayout hcells (joins_intStrategy hint reduction) hne hsplit]
  obtain ⟨_, rfl⟩ : () = () ∧ _ = after := by
    have hafter := (hleft workers).symm.trans hkernel
    simpa using hafter
  refine ⟨split, hsplit, rfl, fun others hlimit ↦ Executor.run_eq_ok_iff.mpr ?_⟩
  have hothers := Executor.prepare_eq_ok_iff.mpr
    ⟨_, _, _, _, hprepared.of_bufferLimit_eq hlimit⟩
  exact ⟨_, _, hothers, (congrFun (hreduces others) _).trans (hleft others)⟩

/-- The new array has the inferred extents, and there are as many results as it has elements. -/
theorem exists_reduceAlong_of_run {cells : Array (Scalar layout.dtype)} (hne : axes ≠ [])
    (hinput : invocation.input 0 = .ok ⟨layout, ⟨layout.dtype, cells⟩⟩)
    (hlayout : layout.Addressable) (hcells : layout.requiredCells ≤ cells.size)
    (hrun : (Executor.mk (.builtin platform) workers).run reduction.opcode invocation =
      .ok () after) :
    ∃ split results, layout.splitAlong axes = .ok split ∧
      results = reduceAlong workers (reduction.intStrategy layout.dtype) cells layout none split ∧
      volume (outputExtents layout.extents axes invocation.params.keepDims) < Size.limit ∧
      results.length = volume (outputExtents layout.extents axes invocation.params.keepDims) ∧
      after.output 0 = .ok (.ofElements results
        (outputExtents layout.extents axes invocation.params.keepDims) .rowMajor) := by
  obtain ⟨split, hsplit, rfl, _⟩ := run_eq_bindOutput hint hsame haxes hdtype hplace hbound hne
    hinput hlayout hcells hrun
  have hcount := isSome_count?_across hlayout.length_strides hne hsplit
  obtain ⟨hlimit, hvolume⟩ := volume_outputExtents invocation.params.keepDims hcount
  refine ⟨split, _, hsplit, rfl, hlimit,
    (length_reduceAlong hlayout hcells hne hsplit).trans hvolume.symm, ?_⟩
  rw [Invocation.output, Invocation.output?_bindOutput hplace]

end

/-- A reduction of integers to their own type along some axes leaves a row-major array without gaps
of the inferred extents. Its element at given coordinates is the sum or the product modulo the
width, or the extreme value or absolute value, of just those elements of the input that have these
coordinates on the kept axes. With other workers the result is the same. -/
theorem run_integer_reduction (hinput : invocation.input 0 = .ok input) (hvalid : input.Valid)
    (hint : input.dtype.isInt) (hsame : reduction.outputRule = .sameAsInput)
    (haxes : resolveAxes invocation.params.axes input.layout.rank = axes) (hne : axes ≠ [])
    (hdtype : invocation.params.dtype = none) (hplace : invocation.inPlace = false)
    (hbound : invocation.boundOutput? 0 = none)
    (hrun : (Executor.mk (.builtin platform) workers).run reduction.opcode invocation =
      .ok () after) :
    (∃ output, after = invocation.bindOutput 0 output ∧ after.output 0 = .ok output ∧
      output.Valid ∧ output.layout.isPacked ∧
      output.layout =
        .packed (outputExtents input.extents axes invocation.params.keepDims) .rowMajor
          input.dtype ∧
      ∀ coords, InBox output.extents coords → ∃ values result,
        (input.layout.coordinates.filter fun place ↦
            across axes place = keptCoords axes invocation.params.keepDims coords).map
          input.valueAt? = values.map some ∧
        output.valueAt? coords = some result ∧ reduction.IsExact input.dtype values result) ∧
      ∀ others, others.platform.bufferLimit = workers.platform.bufferLimit →
        (Executor.mk (.builtin platform) others).run reduction.opcode invocation =
          .ok () after := by
  obtain ⟨layout, ⟨dtype, cells⟩⟩ := input
  obtain rfl : dtype = layout.dtype := hvalid.dtype_eq
  have hlayout : layout.Addressable := hvalid.addressable
  have hcells : layout.requiredCells ≤ cells.size := hvalid.requiredCells_le
  obtain ⟨split, hsplit, rfl, hothers⟩ := run_eq_bindOutput hint hsame haxes hdtype hplace hbound
    hne hinput hlayout hcells hrun
  have hcount := isSome_count?_across hlayout.length_strides hne hsplit
  obtain ⟨hlimit, hvolume⟩ := volume_outputExtents invocation.params.keepDims hcount
  have hresults : List.Forall₂ _ _
      (reduceAlong workers (reduction.intStrategy layout.dtype) cells layout none split) :=
    forall₂_isExact hint hsame hlayout hcells hne hsplit
  have hlength : (reduceAlong workers (reduction.intStrategy layout.dtype) cells layout none
      split).length = volume (outputExtents layout.extents axes invocation.params.keepDims) :=
    (length_reduceAlong hlayout hcells hne hsplit).trans hvolume.symm
  refine ⟨⟨_, rfl, ?_, Tensor.valid_ofElements hlimit hlength .rowMajor,
    isPacked_packed (count?_outputExtents.symm ▸ hcount) .rowMajor layout.dtype, rfl,
    fun coords hbox ↦ ?_⟩, hothers⟩
  · rw [Invocation.output, Invocation.output?_bindOutput hplace]
  · obtain ⟨result, hresult, elements, hholds, hexact⟩ :=
      Order.exists_of_forall₂_coordinates hresults (inBox_keptCoords hbox)
    refine ⟨elements.map Scalar.value, result.value, hholds.map_valueAt?, ?_, hexact⟩
    rw [Tensor.valueAt?_ofElements hlimit .rowMajor hbox]
    show ((reduceAlong _ _ _ _ _ _)[Order.rowMajor.index
      (outputExtents layout.extents axes invocation.params.keepDims) coords]?).map _ = _
    rw [index_outputExtents hbox, hresult]
    rfl

/-- A column-major array with a repeated row, whose columns are to be summed. -/
def repeatedRowSum : Invocation :=
  ⟨[⟨make [2, 2] [0, 1] .columnMajor .i8, ⟨.i8, #[⟨100⟩, ⟨56⟩]⟩⟩], [], ⟨some [0], false, none⟩,
    false⟩

/-- The sums of the columns, modulo 256. -/
def repeatedRowSums : Tensor :=
  ⟨packed [2] .rowMajor .i8, ⟨.i8, #[⟨200⟩, ⟨112⟩]⟩⟩

/-- Three workers and one sum the columns of a column-major array with a repeated row modulo 256. -/
theorem run_integer_reduction_repeated :
    (make [2, 2] [0, 1] .columnMajor .i8).Addressable ∧
      Executor.small.run sum.opcode repeatedRowSum =
        .ok () (repeatedRowSum.bindOutput 0 repeatedRowSums) ∧
      (Executor.mk (.builtin .small) ⟨.small, ⟨some 1, 1⟩, 1⟩).run sum.opcode repeatedRowSum =
        .ok () (repeatedRowSum.bindOutput 0 repeatedRowSums) := by
  have hlayout : strided [2, 2] [0, 1] .columnMajor .i8 =
      .ok (make [2, 2] [0, 1] .columnMajor .i8) := rfl
  have haddressable := addressable_of_strided hlayout
  have hvalid : (Tensor.mk (make [2, 2] [0, 1] .columnMajor .i8)
      ⟨.i8, #[⟨100⟩, ⟨56⟩]⟩).Valid := ⟨haddressable, rfl, by decide⟩
  refine ⟨haddressable, ?hrun,
    (run_integer_reduction rfl hvalid rfl rfl rfl (by decide) rfl rfl rfl ?hrun).2 _ rfl⟩
  rfl

end ArrayEngine
