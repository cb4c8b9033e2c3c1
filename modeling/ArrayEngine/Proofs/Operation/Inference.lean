import ArrayEngine.Proofs.Layout.SplitSuccess
import ArrayEngine.Proofs.Operation.Writes

/-!
# Inferred layouts and runs

The layout of a result is inferred before a run, without looking at the elements, and the kernels
find the elements of the result without looking at that layout. `run_iff_inferred` says that the two
agree: for an array with elements and not too many axes, a built-in operation succeeds exactly if a
layout is inferred, there is a kernel for its type and an array can be made for it. No kernel fails
after that, since it writes as many elements as the layout has (`exists_writes_of_inferred`).
-/

namespace ArrayEngine

open Layout Reduction

/-! ## The number of results -/

/-- Along any axes, there are as many results as the inferred shape has elements, whether the axes
are kept in the shape or not. -/
theorem length_reduceAlong_eq_volume {α β γ : Type} {layout : Layout} {cells : Array α}
    (hlayout : layout.Addressable) (hcells : layout.requiredCells ≤ cells.size) {axes : List Nat}
    {split : AxisSplit} (hsplit : layout.splitAlong axes = .ok split) (workers : Workers)
    (strategy : Strategy α β γ) (requested : Option Nat) (keepDims : Bool) :
    (reduceAlong workers strategy cells layout requested split).length =
      volume (outputExtents layout.extents axes keepDims) := by
  by_cases hnil : axes = []
  · -- Along no axis, each element has a result of its own.
    subst hnil
    have helements : layout.splitAlong [] = .ok .elements := rfl
    obtain rfl : AxisSplit.elements = split := Except.ok.inj (helements.symm.trans hsplit)
    rw [reduceAlong, List.length_map, length_gather fun _ ↦ offset_lt_size hlayout hcells,
      length_offsets, outputExtents_nil, size]
  · have hcount := isSome_count?_across hlayout.length_strides hnil hsplit
    rw [length_reduceAlong hlayout hcells hnil hsplit, (volume_outputExtents keepDims hcount).2]

/-! ## The kernels that are found for an inferred layout -/

section

variable {workers : Workers} {opcode : Nat} {invocation : Invocation} {source : Tensor}
  {kernel : Kernel} (hplace : invocation.inPlace = false)
  (hsource : invocation.input 0 = .ok source) (hvalid : source.Valid)

include hplace hsource hvalid

/-- Each kernel of a transform writes as many elements as the input has. -/
theorem Transform.exists_writes {transform : Transform} {output : DType}
    (hkernel : transform.kernel? workers.platform source.dtype output = some kernel) :
    ∃ values : List (Scalar output), values.length = source.size ∧
      kernel.Writes workers opcode invocation values := by
  unfold Transform.kernel? at hkernel
  split at hkernel
  · split at hkernel
    · cases hkernel
    · split at hkernel
      · rename_i hbool
        cases hkernel
        have hbool : source.dtype = .bool := by
          cases hdtype : source.dtype <;> first | rfl | exact absurd (hdtype ▸ hbool) (by decide)
        exact Kernel.writes_convertTruth hplace hsource hvalid hbool output
      · split at hkernel
        · rename_i hcomputes
          cases hkernel
          obtain ⟨values, hlength, -, hwrites⟩ :=
            Kernel.writes_convert hplace hsource hvalid rfl fun hsame ↦ hsame ▸ hcomputes
          exact ⟨values, hlength, hwrites⟩
        · cases hkernel
  · split at hkernel
    · rename_i hsame
      cases hkernel
      obtain ⟨rfl, _⟩ : source.dtype = output ∧ workers.platform.computes source.dtype := by
        simpa using hsame
      obtain ⟨values, hlength, -, hwrites⟩ := Kernel.writes_assign hplace hsource hvalid rfl
      exact ⟨values, hlength, hwrites⟩
    · cases hkernel

variable (hrank : source.layout.rank ≤ maxRank) (hpos : 0 < source.size)

include hrank hpos

/-- Each kernel of a reduction writes one element for each element of the inferred shape, if the
array has elements and the axes exist and are listed once. -/
theorem Reduction.exists_writes {reduction : Reduction} {output : DType} {mask : List Bool}
    (hmask : axisMask (resolveAxes invocation.params.axes source.layout.rank) source.layout.rank =
      .ok mask)
    (hkernel : reduction.kernel? workers.platform source.dtype output = some kernel) :
    ∃ values : List (Scalar output),
      values.length = volume (outputExtents source.layout.extents
        (resolveAxes invocation.params.axes source.layout.rank) invocation.params.keepDims) ∧
      kernel.Writes workers reduction.opcode invocation values := by
  have hcomputes := computes_of_kernel? hkernel
  obtain ⟨β, strategy, heq⟩ := exists_reduceWith_of_kernel? workers hkernel
  obtain ⟨axes, haxes⟩ : ∃ axes, resolveAxes invocation.params.axes source.layout.rank = axes :=
    ⟨_, rfl⟩
  rw [haxes] at hmask ⊢
  obtain ⟨split, hsplit⟩ := hvalid.addressable.exists_splitAlong hrank hpos hmask
  by_cases hnil : axes = []
  · obtain ⟨values, hlength, -, hwrites⟩ :=
      Kernel.writes_convert hplace hsource hvalid rfl fun hsame ↦ hsame ▸ hcomputes
    refine ⟨values, ?_, fun tensor ↦ ?_⟩
    · rw [hnil, outputExtents_nil, hlength]
      rfl
    · rw [heq, Kernel.reduceWith_bindOutput_eq_convert hsource haxes hnil]
      exact hwrites tensor
  · obtain ⟨values, hlength, hwrites⟩ :=
      Kernel.writes_reduceWith hsource haxes hvalid rfl hnil hsplit
    have hcount := isSome_count?_across hvalid.addressable.length_strides hnil hsplit
    exact ⟨values, hlength.trans (volume_outputExtents _ hcount).2.symm, hwrites.of_eq heq⟩

end

namespace Executor

variable {workers : Workers} {opcode : Nat} {tensor : Tensor} {outputs : List (Option Tensor)}
  {params : Params} {layouts : List Layout} {layout : Layout} {kernel : Kernel}

/-- Every built-in operation infers one layout. -/
theorem outputLayouts_builtin {platform : Platform} {input : Layout}
    (h : (Executor.mk (.builtin platform) workers).outputLayouts opcode [input] params =
      .ok layouts) :
    (∃ reduction mask, opcode = Reduction.opcode reduction ∧
        axisMask (resolveAxes params.axes input.rank) input.rank = .ok mask ∧
        layouts = [reduction.outputLayout input params]) ∨
      ∃ transform, opcode = Transform.opcode transform ∧
        layouts = [transform.outputLayout input] := by
  obtain ⟨operation, hoperation, h⟩ := bind_eq_ok.mp h
  obtain ⟨_, _, h⟩ := bind_eq_ok.mp h
  rcases Registry.exists_of_operation_builtin hoperation with
    ⟨reduction, rfl, rfl⟩ | ⟨transform, rfl, rfl⟩
  · have hlayouts : Reduction.inferLayouts reduction.opcode [input] params = .ok layouts := h
    obtain ⟨⟨mask, hmask⟩, rfl⟩ := Reduction.inferLayouts_eq_ok_iff.mp hlayouts
    exact .inl ⟨reduction, mask, rfl, hmask, rfl⟩
  · cases h
    exact .inr ⟨transform, rfl, rfl⟩

/-- Each kernel that is found for the inferred layout writes as many elements as the layout has. -/
theorem exists_writes_of_inferred {invocation : Invocation} (hplace : invocation.inPlace = false)
    (hsource : invocation.input 0 = .ok tensor) (hvalid : tensor.Valid)
    (hrank : tensor.layout.rank ≤ maxRank) (hpos : 0 < tensor.size)
    (hlayouts : (Executor.mk (.builtin workers.platform) workers).outputLayouts opcode
      [tensor.layout] invocation.params = .ok [layout])
    (hkernel : (Executor.mk (.builtin workers.platform) workers).kernelFor opcode tensor.dtype
      layout.dtype = .ok kernel) :
    ∃ values : List (Scalar layout.dtype), values.length = layout.size ∧
      kernel.Writes workers opcode invocation values := by
  obtain ⟨_, _, _, hkernel⟩ := kernelFor_eq_ok_iff.mp hkernel
  rcases outputLayouts_builtin hlayouts with
    ⟨reduction, mask, rfl, hmask, heq⟩ | ⟨transform, rfl, heq⟩
  · rw [Registry.kernel?_builtin] at hkernel
    obtain rfl := List.singleton_inj.mp heq
    exact Reduction.exists_writes hplace hsource hvalid hrank hpos hmask hkernel
  · rw [Registry.kernel?_builtin_transform] at hkernel
    obtain rfl := List.singleton_inj.mp heq
    exact Transform.exists_writes hplace hsource hvalid hkernel

/-! ## Runs -/

section

variable {executor : Executor} {invocation after : Invocation}

/-- If no layouts can be inferred, a run fails with the same error and changes nothing. -/
theorem run_of_outputLayouts_error {error : Error} (hplace : invocation.inPlace = false)
    (h : executor.outputLayouts opcode invocation.inputLayouts invocation.params = .error error) :
    executor.run opcode invocation = .error (.raised error) invocation := by
  have hlength : invocation.inputLayouts.length = invocation.inputs.length := by
    rw [Invocation.inputLayouts, List.length_map]
  have hprepare : executor.prepare opcode invocation = .error (.raised error) := by
    unfold outputLayouts at h
    unfold prepare
    cases hoperation : executor.registry.operation opcode with
    | error cause =>
        rw [hoperation] at h
        cases h
        rfl
    | ok operation =>
        simp only [hoperation, bind, Except.bind, hlength, Failure.liftError_ok] at h ⊢
        cases hcount : operation.checkInputCount invocation.inputs.length with
        | error cause =>
            rw [hcount] at h
            cases h
            rfl
        | ok _ =>
            have hallowed : (notInPlace operation).raiseUnless
                (invocation.inPlace → operation.inPlace) = .ok () :=
              Error.raiseUnless_eq_ok.mpr fun h ↦ by simp [hplace] at h
            simp only [hcount] at h
            simp only [hallowed, h, Failure.liftError_ok, Failure.liftError_error]
  rw [run, hprepare]

/-- The checks before a run have inferred the layouts. -/
theorem Prepared.outputLayouts_eq {operation : Operation} {input : Tensor} {output : DType}
    {fresh : List (Nat × Tensor)}
    (h : Prepared executor opcode invocation operation input layouts output kernel fresh) :
    executor.outputLayouts opcode invocation.inputLayouts invocation.params = .ok layouts := by
  have hcount : operation.checkInputCount invocation.inputLayouts.length = .ok () := by
    rw [Invocation.inputLayouts, List.length_map]
    exact h.inputCount_eq
  exact bind_eq_ok.mpr ⟨operation, h.operation_eq, bind_eq_ok.mpr
    ⟨(), hcount, h.layouts_eq⟩⟩

end

/-- If a layout is inferred, there is a kernel for its type and an array can be made for it, then
all checks before a run succeed. -/
theorem prepared_of_inferred {platform : Platform} {blank : Tensor}
    (hfree : (Invocation.mk [tensor] outputs params false).boundOutput? 0 = none)
    (hlayouts : (Executor.mk (.builtin platform) workers).outputLayouts opcode [tensor.layout]
      params = .ok [layout])
    (hkernel : (Executor.mk (.builtin platform) workers).kernelFor opcode tensor.dtype
      layout.dtype = .ok kernel)
    (hzeros : Tensor.zeros workers.platform layout = .ok blank) :
    ∃ operation, Prepared ⟨.builtin platform, workers⟩ opcode ⟨[tensor], outputs, params, false⟩
      operation tensor [layout] layout.dtype kernel [(0, blank)] := by
  obtain ⟨operation, hoperation, hlayouts⟩ := bind_eq_ok.mp hlayouts
  obtain ⟨⟨⟩, hcount, hlayouts⟩ := bind_eq_ok.mp hlayouts
  refine ⟨operation,
    { operation_eq := hoperation
      inputCount_eq := hcount
      inPlace := nofun
      layouts_eq := hlayouts
      outputCount_eq := ?_
      input_eq := rfl
      furtherInputs_eq := rfl
      outputs_eq := bind_eq_ok.mpr ⟨(), ?_, rfl⟩
      output_eq := outputType_of_free rfl hfree layout []
      kernel_eq := hkernel
      fresh_eq := ?_ }⟩
  · rcases Registry.exists_of_operation_builtin hoperation with ⟨_, _, rfl⟩ | ⟨_, _, rfl⟩
    · rfl
    · rfl
  · simp only [checkOutput, hfree, Bool.false_eq_true, if_false]
  · rw [freshOutputs, if_neg (by simp), allocate, hfree]
    exact bind_eq_ok.mpr ⟨blank, hzeros, rfl⟩

/-- A built-in operation that succeeds in making its output has inferred a layout for it, has a
kernel for its type, and could make the array. -/
theorem exists_kernelFor_of_separate {platform : Platform} {after : Invocation}
    (hfree : (Invocation.mk [tensor] outputs params false).boundOutput? 0 = none)
    (hrun : (Executor.mk (.builtin platform) workers).run opcode
      ⟨[tensor], outputs, params, false⟩ = .ok () after) :
    ∃ layout kernel blank,
      (Executor.mk (.builtin platform) workers).outputLayouts opcode [tensor.layout] params =
        .ok [layout] ∧
      (Executor.mk (.builtin platform) workers).kernelFor opcode tensor.dtype layout.dtype =
        .ok kernel ∧
      Tensor.zeros workers.platform layout = .ok blank := by
  obtain ⟨kernel, fresh, hprepare, -⟩ := run_eq_ok_iff.mp hrun
  obtain ⟨operation, found, layouts, output, hprepared⟩ := prepare_eq_ok_iff.mp hprepare
  obtain rfl : tensor = found := Except.ok.inj hprepared.input_eq
  obtain ⟨⟨extents, order, dtype, rfl⟩, -⟩ := hprepared.of_builtin
  obtain rfl : dtype = output :=
    Except.ok.inj ((outputType_of_free rfl hfree _ _).symm.trans hprepared.output_eq)
  obtain ⟨blank, hzeros, -⟩ := freshOutputs_singleton rfl hfree hprepared.fresh_eq
  exact ⟨_, kernel, blank, hprepared.outputLayouts_eq, hprepared.kernel_eq, hzeros⟩

/-- A built-in operation on an array with elements and not too many axes succeeds in making its
output exactly if a layout is inferred, there is a kernel for its type and an array can be made for
it. The output has the inferred layout. If no layout is inferred, the run fails with the same error
and changes nothing. Along any axes, the engine has as many results as the inferred shape has
elements, with and without the reduced axes. -/
theorem run_iff_inferred (hvalid : tensor.Valid) (hrank : tensor.layout.rank ≤ maxRank)
    (hpos : 0 < tensor.size)
    (hfree : (Invocation.mk [tensor] outputs params false).boundOutput? 0 = none)
    (workers : Workers) (opcode : Nat) :
    ((∃ after, (Executor.mk (.builtin workers.platform) workers).run opcode
          ⟨[tensor], outputs, params, false⟩ = .ok () after) ↔
        ∃ layout kernel blank,
          (Executor.mk (.builtin workers.platform) workers).outputLayouts opcode [tensor.layout]
            params = .ok [layout] ∧
          (Executor.mk (.builtin workers.platform) workers).kernelFor opcode tensor.dtype
            layout.dtype = .ok kernel ∧
          Tensor.zeros workers.platform layout = .ok blank) ∧
      (∀ after, (Executor.mk (.builtin workers.platform) workers).run opcode
          ⟨[tensor], outputs, params, false⟩ = .ok () after →
        ∃ output, after.output 0 = .ok output ∧
          (Executor.mk (.builtin workers.platform) workers).outputLayouts opcode [tensor.layout]
            params = .ok [output.layout]) ∧
      (∀ error, (Executor.mk (.builtin workers.platform) workers).outputLayouts opcode
          [tensor.layout] params = .error error →
        (Executor.mk (.builtin workers.platform) workers).run opcode
            ⟨[tensor], outputs, params, false⟩ =
          .error (.raised error) ⟨[tensor], outputs, params, false⟩) ∧
      ∀ (β γ : Type) (strategy : Strategy (Scalar tensor.storage.dtype) β γ) requested axes split,
        tensor.layout.splitAlong axes = .ok split → ∀ keepDims,
          (reduceAlong workers strategy tensor.storage.cells tensor.layout requested split).length =
            volume (outputExtents tensor.extents axes keepDims) := by
  refine ⟨⟨?succeeds, ?inferred⟩, ?layout, ?fails, ?length⟩
  case succeeds =>
    rintro ⟨after, hrun⟩
    exact exists_kernelFor_of_separate hfree hrun
  case inferred =>
    rintro ⟨layout, kernel, blank, hlayouts, hkernel, hzeros⟩
    obtain ⟨operation, hprepared⟩ := prepared_of_inferred hfree hlayouts hkernel hzeros
    have hplace : (Invocation.mk [tensor] outputs params false).inPlace = false := rfl
    obtain ⟨values, hlength, hwrites⟩ :=
      exists_writes_of_inferred hplace rfl hvalid hrank hpos hlayouts hkernel
    -- The new array has just the place for what the kernel writes.
    have hblank := Tensor.zeros_eq_ok hzeros
    have hwrite : ∃ left, Tensor.write values blank = .ok () left := by
      rw [hblank]
      exact ⟨_, Tensor.write_eq_ok_iff.mpr ⟨hlength, _, rfl, rfl⟩⟩
    obtain ⟨left, hwrite⟩ := hwrite
    exact ⟨_, run_eq_ok_iff.mpr ⟨kernel, _, prepare_eq_ok_iff.mpr ⟨_, _, _, _, hprepared⟩,
      hwrites.eq_ok hplace hwrite⟩⟩
  case layout =>
    intro after hrun
    have hinput : (Invocation.mk [tensor] outputs params false).input 0 = .ok tensor := rfl
    obtain ⟨output, kernel, rfl, hmade⟩ := exists_made hinput hvalid rfl hfree hrun
    obtain ⟨operation, fresh, hprepared⟩ := hmade.prepared
    exact ⟨output, Invocation.output_bindOutput rfl, hprepared.outputLayouts_eq⟩
  case fails =>
    intro error hlayouts
    exact run_of_outputLayouts_error rfl hlayouts
  case length =>
    intro β γ strategy requested axes split hsplit keepDims
    exact length_reduceAlong_eq_volume hvalid.addressable hvalid.requiredCells_le hsplit workers
      strategy requested keepDims

/-- A column-major array with a gap between its columns. -/
def gappedBytes : Tensor :=
  .gapped .columnMajor ⟨1⟩ ⟨3⟩ ⟨2⟩ ⟨4⟩

/-- The conversion of the array to a wider type succeeds, since a layout is inferred for it and its
kernel is known. -/
theorem run_iff_inferred_converted :
    gappedBytes.Valid ∧
      Executor.small.outputLayouts Transform.toInt64.opcode [gappedBytes.layout] {} =
        .ok [packed [2, 2] .columnMajor .i64] ∧
      ∃ after output, Executor.small.run Transform.toInt64.opcode ⟨[gappedBytes], [], {}, false⟩ =
          .ok () after ∧
        after.output 0 = .ok output ∧ output.layout = packed [2, 2] .columnMajor .i64 := by
  have hvalid : gappedBytes.Valid := Tensor.valid_gapped _ _ _ _ _
  have hlayouts : Executor.small.outputLayouts Transform.toInt64.opcode [gappedBytes.layout] {} =
      .ok [packed [2, 2] .columnMajor .i64] := rfl
  have hfree : (Invocation.mk [gappedBytes] [] {} false).boundOutput? 0 = none := rfl
  obtain ⟨hiff, hlayout, -⟩ := run_iff_inferred hvalid (by decide) (by decide) hfree
    .small Transform.toInt64.opcode
  obtain ⟨after, hrun⟩ := hiff.mpr ⟨_, Kernel.convert .i8 .i64, _, hlayouts, rfl, rfl⟩
  obtain ⟨output, houtput, hinferred⟩ := hlayout after hrun
  have heq := Except.ok.inj (hinferred.symm.trans hlayouts)
  exact ⟨hvalid, hlayouts, after, output, hrun, houtput, List.singleton_inj.mp heq⟩

end Executor

end ArrayEngine
