import ArrayEngine.Proofs.Operation.Inference

/-!
# Runs in place

In place, the input takes the result. A built-in operation runs in place only if it infers just the
layout that the input has, and its kernel then writes over the input what it would write to an array
of its own, or has nothing to do because these are the elements of the input
(`IsBuiltin.overwrites_or_refuses`). `run_inPlace_iff` says that a run in place succeeds exactly if
a run with a separate output does and infers this layout, and that both leave the same elements.
-/

namespace ArrayEngine

open Layout Reduction

/-! ## The kernels between equal types -/

/-- The kernels of a transform that keeps the type are for types that can be computed with. -/
theorem Transform.computes_of_kernel? {transform : Transform} {platform : Platform} {dtype : DType}
    {kernel : Kernel} (h : transform.kernel? platform dtype dtype = some kernel) :
    platform.computes dtype := by
  unfold kernel? at h
  cases transform with
  | assign =>
      simp only [target?] at h
      split at h
      · rename_i hsame
        exact (Bool.and_eq_true_iff.mp hsame).2
      · cases h
  | toInt64 | toFloat32 | toFloat64 =>
      -- The targets are types of numbers, so that no truth values are converted to themselves.
      simp only [target?] at h
      split at h
      · cases h
      · rename_i hsame
        rw [not_not.mp hsame]
        rfl

theorem Registry.computes_of_kernel? {platform : Platform} {opcode : Nat} {dtype : DType}
    {kernel : Kernel} (h : (Registry.builtin platform).kernel? opcode dtype dtype = some kernel) :
    platform.computes dtype := by
  unfold builtin at h
  simp only at h
  split at h
  · exact Reduction.computes_of_kernel? h
  · split at h
    · exact Transform.computes_of_kernel? h
    · cases h

namespace Kernel

variable {kernel : Kernel} {workers : Workers} {opcode : Nat} {source : Tensor}
  {outputs : List (Option Tensor)} {params : Params}

/-- In place, the kernel writes these elements over the input, or it leaves the input as it is and
these are its elements. -/
def Overwrites (kernel : Kernel) (workers : Workers) (opcode : Nat) (source : Tensor)
    (outputs : List (Option Tensor)) (params : Params)
    (values : List (Scalar source.dtype)) : Prop :=
  kernel workers opcode ⟨[source], outputs, params, true⟩ =
      Invocation.updateOutput 0 (Tensor.write values) ⟨[source], outputs, params, true⟩ ∨
    kernel workers opcode ⟨[source], outputs, params, true⟩ =
        .ok () ⟨[source], outputs, params, true⟩ ∧
      source.toList? source.dtype = .ok values

section

variable {values : List (Scalar source.dtype)}
  (h : kernel.Overwrites workers opcode source outputs params values)

include h

/-- If the kernel succeeds, there are as many elements as the input has. -/
theorem Overwrites.length_eq (hvalid : source.Valid) {after : Invocation}
    (hrun : kernel workers opcode ⟨[source], outputs, params, true⟩ = .ok () after) :
    values.length = source.size := by
  rcases h with hwrites | ⟨_, hvalues⟩
  · rw [hwrites] at hrun
    cases hwrite : Tensor.write values source with
    | ok _ left => exact (Tensor.write_eq_ok_iff.mp hwrite).1
    | error error left => simp [Invocation.updateOutput, Invocation.output?, hwrite] at hrun
  · obtain ⟨elements, helements, hlength⟩ := hvalid.exists_toList? rfl
    obtain rfl := Except.ok.inj (hvalues.symm.trans helements)
    exact hlength

/-- If there are as many elements as the input has, and each has a cell of its own, the input is
left with these elements. -/
theorem Overwrites.exists_left (hvalid : source.Valid) (hnodup : source.layout.offsets.Nodup)
    (hlength : values.length = source.size) :
    ∃ left, kernel workers opcode ⟨[source], outputs, params, true⟩ =
        .ok () ⟨[left], outputs, params, true⟩ ∧
      left.layout = source.layout ∧ left.toList? source.dtype = .ok values := by
  rcases h with hwrites | ⟨hnothing, hvalues⟩
  · obtain ⟨left, hwrite⟩ := hvalid.exists_write rfl hlength
    refine ⟨left, ?_, Tensor.layout_of_write hwrite, hvalid.toList?_of_write hnodup hwrite⟩
    rw [hwrites]
    simp [Invocation.updateOutput, Invocation.output?, Invocation.replaceOutput, hwrite]
  · exact ⟨source, hnothing, rfl, hvalues⟩

end

/-- In place, a transfer has nothing to do. -/
theorem transfer_inPlace (fill : Workers → Tensor → Update Tensor) :
    transfer fill workers opcode ⟨[source], outputs, params, true⟩ =
      .ok () ⟨[source], outputs, params, true⟩ := rfl

section

variable (hvalid : source.Valid) (hcomputes : workers.platform.computes source.dtype) (opcode : Nat)
  (outputs : List (Option Tensor)) (params : Params)

include hvalid hcomputes

/-- Between equal types, a conversion writes the elements of the input to any array, and leaves the
input as it is in place. -/
theorem convert_overwrites :
    ∃ values : List (Scalar source.dtype),
      (convert source.dtype source.dtype).Writes workers opcode ⟨[source], outputs, params, false⟩
          values ∧
        (convert source.dtype source.dtype).Overwrites workers opcode source outputs params
          values := by
  have hplace : (Invocation.mk [source] outputs params false).inPlace = false := rfl
  have hsource : (Invocation.mk [source] outputs params false).input 0 = .ok source := rfl
  obtain ⟨values, _, hvalues, hwrites⟩ :=
    writes_convert hplace hsource hvalid rfl fun _ ↦ hcomputes
  exact ⟨values, hwrites, .inr ⟨transfer_inPlace _, hvalues rfl⟩⟩

/-- Between equal types, a reduction writes the same elements to any array and, in place, over the
input, or it refuses both with the same error. -/
theorem reduceWith_overwrites_or_refuses {β : Type}
    (strategy : Strategy (Scalar source.dtype) β (Scalar source.dtype)) :
    (∃ values : List (Scalar source.dtype),
        (reduceWith strategy).Writes workers opcode ⟨[source], outputs, params, false⟩ values ∧
        (reduceWith strategy).Overwrites workers opcode source outputs params values) ∨
      ∃ error,
        (reduceWith strategy).Refuses workers opcode ⟨[source], outputs, params, false⟩ error ∧
        reduceWith strategy workers opcode ⟨[source], outputs, params, true⟩ =
          .error error ⟨[source], outputs, params, true⟩ := by
  have hseparate : (Invocation.mk [source] outputs params false).input 0 = .ok source := rfl
  have haliased : (Invocation.mk [source] outputs params true).input 0 = .ok source := rfl
  obtain ⟨axes, haxes⟩ : ∃ axes, resolveAxes params.axes source.layout.rank = axes := ⟨_, rfl⟩
  by_cases hnil : axes = []
  · refine .inl ?_
    simp only [Writes, Overwrites, reduceWith_bindOutput_eq_convert hseparate haxes hnil,
      reduceWith_eq_convert haliased haxes hnil]
    exact convert_overwrites hvalid hcomputes opcode outputs params
  · cases hsplit : source.layout.splitAlong axes with
    | error error =>
        exact .inr ⟨error, refuses_reduceWith hseparate haxes hsplit,
          reduceWith_of_splitAlong_error haliased haxes hsplit⟩
    | ok split =>
        obtain ⟨elements, helements, -⟩ := hvalid.exists_toList? rfl
        obtain ⟨cells, hstorage, -⟩ := (Tensor.toList?_eq_ok_iff hvalid.addressable).mp helements
        have hcells : source.storage.cells? source.dtype = .ok cells := by
          rw [hstorage, Storage.cells?_self]
        exact .inl ⟨reduceAlong workers strategy cells source.layout none split,
          writes_reduceAlong hseparate haxes hnil hsplit hcells,
          .inl (reduceWith_eq_updateOutput haliased haxes hnil hsplit hcells)⟩

/-- A built-in kernel between equal types writes the same elements to any array that is bound for
its result and, in place, over the input, or it refuses both with the same error. -/
theorem IsBuiltin.overwrites_or_refuses {dtype : DType} (hkernel : IsBuiltin dtype dtype kernel)
    (hdtype : source.dtype = dtype) :
    (∃ values : List (Scalar source.dtype),
        kernel.Writes workers opcode ⟨[source], outputs, params, false⟩ values ∧
        kernel.Overwrites workers opcode source outputs params values) ∨
      ∃ error, kernel.Refuses workers opcode ⟨[source], outputs, params, false⟩ error ∧
        kernel workers opcode ⟨[source], outputs, params, true⟩ =
          .error error ⟨[source], outputs, params, true⟩ := by
  have hreduction (hreduces : Reduces dtype dtype kernel) :
      (∃ values : List (Scalar source.dtype),
          kernel.Writes workers opcode ⟨[source], outputs, params, false⟩ values ∧
          kernel.Overwrites workers opcode source outputs params values) ∨
        ∃ error, kernel.Refuses workers opcode ⟨[source], outputs, params, false⟩ error ∧
          kernel workers opcode ⟨[source], outputs, params, true⟩ =
            .error error ⟨[source], outputs, params, true⟩ := by
    subst hdtype
    rcases hreduces workers opcode with ⟨error, hfails⟩ | ⟨_, strategy, heq⟩
    · exact .inr ⟨error, fun _ ↦ congrFun hfails _, congrFun hfails _⟩
    · simp only [Writes, Overwrites, Refuses, heq]
      exact reduceWith_overwrites_or_refuses hvalid hcomputes opcode outputs params strategy
  cases hkernel with
  | reduce => exact hreduction (reduces_reduce dtype dtype)
  | reduceInts => exact hreduction (reduces_reduceInts dtype)
  | convert =>
      subst hdtype
      exact .inl (convert_overwrites hvalid hcomputes opcode outputs params)
  | convertTruth =>
      rw [hdtype] at hcomputes
      cases hcomputes
  | assign =>
      subst hdtype
      have hplace : (Invocation.mk [source] outputs params false).inPlace = false := rfl
      have hsource : (Invocation.mk [source] outputs params false).input 0 = .ok source := rfl
      obtain ⟨values, _, hvalues, hwrites⟩ := writes_assign hplace hsource hvalid rfl
      exact .inl ⟨values, hwrites, .inr ⟨transfer_inPlace _, hvalues⟩⟩

end

end Kernel

namespace Executor

variable {workers : Workers} {opcode : Nat} {tensor blank : Tensor}
  {outputs : List (Option Tensor)} {params : Params} {kernel : Kernel} {invocation : Invocation}

/-! ## The checks -/

/-- After the checks, a run is what the kernel does. -/
theorem Prepared.run_eq {executor : Executor} {operation : Operation} {input : Tensor}
    {layouts : List Layout} {output : DType} {fresh : List (Nat × Tensor)}
    (h : Prepared executor opcode invocation operation input layouts output kernel fresh) :
    executor.run opcode invocation =
      (kernel executor.workers opcode).raising (bindAll invocation fresh) := by
  rw [run, prepare_eq_ok_iff.mpr ⟨_, _, _, _, h⟩]

/-- A built-in operation that runs in place has inferred the layout of the input, and has a kernel
for its type. -/
theorem exists_kernelFor_of_inPlace {platform : Platform} {after : Invocation}
    (hrun : (Executor.mk (.builtin platform) workers).run opcode ⟨[tensor], outputs, params, true⟩ =
      .ok () after) :
    (Executor.mk (.builtin platform) workers).outputLayouts opcode [tensor.layout] params =
        .ok [tensor.layout] ∧
      ∃ kernel, (Executor.mk (.builtin platform) workers).kernelFor opcode tensor.dtype
        tensor.dtype = .ok kernel := by
  obtain ⟨kernel, fresh, hprepare, -⟩ := run_eq_ok_iff.mp hrun
  obtain ⟨operation, found, layouts, output, hprepared⟩ := prepare_eq_ok_iff.mp hprepare
  obtain rfl : tensor = found := Except.ok.inj hprepared.input_eq
  obtain ⟨⟨extents, order, dtype, rfl⟩, -⟩ := hprepared.of_builtin
  obtain ⟨⟨⟩, hcheck, -⟩ := bind_eq_ok.mp hprepared.outputs_eq
  have hlayout : tensor.layout = .packed extents order dtype := Error.raiseUnless_eq_ok.mp hcheck
  have hlayouts := hprepared.outputLayouts_eq
  rw [← hlayout] at hlayouts
  obtain rfl : dtype = output := Except.ok.inj hprepared.output_eq
  obtain rfl : tensor.dtype = dtype := congrArg Layout.dtype hlayout
  exact ⟨hlayouts, kernel, hprepared.kernel_eq⟩

section

variable {platform : Platform}
  (hlayouts : (Executor.mk (.builtin platform) workers).outputLayouts opcode [tensor.layout]
    params = .ok [tensor.layout])
  (hkernel : (Executor.mk (.builtin platform) workers).kernelFor opcode tensor.dtype tensor.dtype =
    .ok kernel)

include hlayouts hkernel

/-- If just the layout of the input is inferred and there is a kernel for its type, the checks
before a run in place succeed. -/
theorem prepared_inPlace_of_inferred (outputs : List (Option Tensor)) :
    ∃ operation, Prepared ⟨.builtin platform, workers⟩ opcode ⟨[tensor], outputs, params, true⟩
      operation tensor [tensor.layout] tensor.dtype kernel [] := by
  obtain ⟨operation, hoperation, hlayouts⟩ := bind_eq_ok.mp hlayouts
  obtain ⟨⟨⟩, hcount, hlayouts⟩ := bind_eq_ok.mp hlayouts
  have hbuiltin : operation.inPlace ∧ operation.outputCount = 1 := by
    rcases Registry.exists_of_operation_builtin hoperation with ⟨_, _, rfl⟩ | ⟨_, _, rfl⟩
    · exact ⟨rfl, rfl⟩
    · exact ⟨rfl, rfl⟩
  exact ⟨operation,
    { operation_eq := hoperation
      inputCount_eq := hcount
      inPlace := fun _ ↦ hbuiltin.1
      layouts_eq := hlayouts
      outputCount_eq := hbuiltin.2.symm
      input_eq := rfl
      furtherInputs_eq := rfl
      outputs_eq := bind_eq_ok.mpr ⟨(), Error.raiseUnless_eq_ok.mpr rfl, rfl⟩
      output_eq := rfl
      kernel_eq := hkernel
      fresh_eq := rfl }⟩

/-- The layout that a built-in operation infers has no gaps, so that each element has a cell of its
own. -/
theorem nodup_offsets_of_inferred (hvalid : tensor.Valid) : tensor.layout.offsets.Nodup := by
  obtain ⟨operation, hprepared⟩ := prepared_inPlace_of_inferred hlayouts hkernel []
  obtain ⟨⟨extents, order, dtype, hlayouts⟩, -⟩ := hprepared.of_builtin
  have hpacked := List.head_eq_of_cons_eq hlayouts
  have hvolume : volume extents < Size.limit := by
    have hsize := hvalid.addressable.size_lt
    rw [hpacked] at hsize
    exact hsize
  rw [hpacked]
  exact nodup_offsets_packed hvolume _ _

end

/-! ## Both runs -/

/-- If just the layout of the input is inferred, there is a kernel for its type and an array can be
made, then a run in place and one with a separate output succeed with the same elements, or neither
of them succeeds. -/
theorem runs_of_inferred (hvalid : tensor.Valid)
    (hfree : (Invocation.mk [tensor] outputs params false).boundOutput? 0 = none)
    (hlayouts : (Executor.mk (.builtin workers.platform) workers).outputLayouts opcode
      [tensor.layout] params = .ok [tensor.layout])
    (hkernel : (Executor.mk (.builtin workers.platform) workers).kernelFor opcode tensor.dtype
      tensor.dtype = .ok kernel)
    (hzeros : Tensor.zeros workers.platform tensor.layout = .ok blank) :
    (∃ (left made : Tensor) (values : List (Scalar tensor.dtype)),
        (Executor.mk (.builtin workers.platform) workers).run opcode
          ⟨[tensor], outputs, params, true⟩ = .ok () ⟨[left], outputs, params, true⟩ ∧
        (Executor.mk (.builtin workers.platform) workers).run opcode
          ⟨[tensor], outputs, params, false⟩ =
            .ok () ((Invocation.mk [tensor] outputs params false).bindOutput 0 made) ∧
        left.layout = tensor.layout ∧ made.layout = tensor.layout ∧
        left.toList? tensor.dtype = .ok values ∧ made.toList? tensor.dtype = .ok values) ∨
      (∀ after, (Executor.mk (.builtin workers.platform) workers).run opcode
          ⟨[tensor], outputs, params, true⟩ ≠ .ok () after) ∧
        ∀ after, (Executor.mk (.builtin workers.platform) workers).run opcode
          ⟨[tensor], outputs, params, false⟩ ≠ .ok () after := by
  have hplace : (Invocation.mk [tensor] outputs params false).inPlace = false := rfl
  have hnodup := nodup_offsets_of_inferred hlayouts hkernel hvalid
  obtain ⟨_, haliased⟩ := prepared_inPlace_of_inferred hlayouts hkernel outputs
  obtain ⟨_, hseparate⟩ := prepared_of_inferred hfree hlayouts hkernel hzeros
  obtain ⟨_, _, _, hfound⟩ := kernelFor_eq_ok_iff.mp hkernel
  have hbuiltin := Registry.isBuiltin_of_kernel? hfound
  have hcomputes := Registry.computes_of_kernel? hfound
  have hblank := Tensor.valid_zeros hvalid.addressable hzeros
  have hlayout : blank.layout = tensor.layout := by rw [Tensor.zeros_eq_ok hzeros]
  have hsize : blank.size = tensor.size := congrArg Layout.size hlayout
  have hdtype : blank.dtype = tensor.dtype := congrArg Layout.dtype hlayout
  rw [haliased.run_eq, hseparate.run_eq]
  simp only [Update.raising_eq_ok_iff, ne_eq]
  rcases hbuiltin.overwrites_or_refuses hvalid hcomputes opcode outputs params rfl with
    ⟨values, hwrites, hover⟩ | ⟨error, hrefuses, hfails⟩
  · by_cases hlength : values.length = tensor.size
    · obtain ⟨left, hleft, hleftLayout, hleftValues⟩ := hover.exists_left hvalid hnodup hlength
      obtain ⟨made, hwrite⟩ := hblank.exists_write hdtype (hlength.trans hsize.symm)
      have hmadeLayout := Tensor.layout_of_write hwrite
      have hmadeValues := hblank.toList?_of_write (hlayout ▸ hnodup) hwrite
      exact .inl ⟨left, made, values, hleft, hwrites.eq_ok hplace hwrite, hleftLayout,
        hmadeLayout.trans hlayout, hleftValues, hmadeValues⟩
    · -- A wrong number of elements is refused either way.
      refine .inr ⟨fun after hrun ↦ hlength (hover.length_eq hvalid hrun), fun after hrun ↦ ?_⟩
      obtain ⟨made, hwrite, -⟩ := hwrites.exists_write hplace hrun
      exact hlength ((Tensor.write_eq_ok_iff.mp hwrite).1.trans hsize)
  · refine .inr ⟨fun after hrun ↦ ?_, fun after ↦ hrefuses.ne_ok⟩
    have hrun : kernel workers opcode ⟨[tensor], outputs, params, true⟩ = .ok () after := hrun
    rw [hfails] at hrun
    cases hrun

/-- A built-in operation succeeds in place exactly if it succeeds in making its output and infers
for it just the layout that the input has, provided that an array with this layout can be made. The
input that was written over then has this layout, as the new output has, and both have the same
elements in the same order. -/
theorem run_inPlace_iff (hvalid : tensor.Valid)
    (hfree : (Invocation.mk [tensor] outputs params false).boundOutput? 0 = none)
    (workers : Workers) (opcode : Nat)
    (hzeros : (Executor.mk (.builtin workers.platform) workers).outputLayouts opcode
        [tensor.layout] params = .ok [tensor.layout] →
      ∃ blank, Tensor.zeros workers.platform tensor.layout = .ok blank) :
    ((∃ after, (Executor.mk (.builtin workers.platform) workers).run opcode
          ⟨[tensor], outputs, params, true⟩ = .ok () after) ↔
        (∃ after, (Executor.mk (.builtin workers.platform) workers).run opcode
          ⟨[tensor], outputs, params, false⟩ = .ok () after) ∧
        (Executor.mk (.builtin workers.platform) workers).outputLayouts opcode [tensor.layout]
          params = .ok [tensor.layout]) ∧
      ∀ after after', (Executor.mk (.builtin workers.platform) workers).run opcode
          ⟨[tensor], outputs, params, true⟩ = .ok () after →
        (Executor.mk (.builtin workers.platform) workers).run opcode
          ⟨[tensor], outputs, params, false⟩ = .ok () after' →
        ∃ (left made : Tensor) (values : List (Scalar tensor.dtype)),
          after.output 0 = .ok left ∧ after'.output 0 = .ok made ∧
          left.layout = tensor.layout ∧ made.layout = tensor.layout ∧
          left.toList? tensor.dtype = .ok values ∧ made.toList? tensor.dtype = .ok values := by
  refine ⟨⟨?separate, ?inPlace⟩, ?agree⟩
  case separate =>
    rintro ⟨after, hrun⟩
    obtain ⟨hlayouts, kernel, hkernel⟩ := exists_kernelFor_of_inPlace hrun
    obtain ⟨blank, hblank⟩ := hzeros hlayouts
    rcases runs_of_inferred hvalid hfree hlayouts hkernel hblank with
      ⟨left, made, values, -, hseparate, -⟩ | ⟨hfails, -⟩
    · exact ⟨⟨_, hseparate⟩, hlayouts⟩
    · exact absurd hrun (hfails after)
  case inPlace =>
    rintro ⟨⟨after, hrun⟩, hlayouts⟩
    obtain ⟨layout, kernel, blank, hinferred, hkernel, hblank⟩ :=
      exists_kernelFor_of_separate hfree hrun
    obtain rfl := List.singleton_inj.mp (Except.ok.inj (hlayouts.symm.trans hinferred))
    rcases runs_of_inferred hvalid hfree hlayouts hkernel hblank with
      ⟨left, made, values, haliased, -⟩ | ⟨-, hfails⟩
    · exact ⟨_, haliased⟩
    · exact absurd hrun (hfails after)
  case agree =>
    intro after after' hrun hrun'
    obtain ⟨hlayouts, kernel, hkernel⟩ := exists_kernelFor_of_inPlace hrun
    obtain ⟨blank, hblank⟩ := hzeros hlayouts
    rcases runs_of_inferred hvalid hfree hlayouts hkernel hblank with
      ⟨left, made, values, haliased, hseparate, hlayout, hlayout', hvalues, hvalues'⟩ |
      ⟨hfails, -⟩
    · rw [haliased] at hrun
      rw [hseparate] at hrun'
      cases hrun
      cases hrun'
      exact ⟨left, made, values, rfl, Invocation.output_bindOutput rfl, hlayout, hlayout', hvalues,
        hvalues'⟩
    · exact absurd hrun (hfails after)

/-- A column whose buffer is longer than it needs. -/
def longColumn : Tensor :=
  ⟨packed [2, 1] .rowMajor .i8, ⟨.i8, #[⟨1⟩, ⟨2⟩, ⟨99⟩]⟩⟩

/-- Sums along an axis with a single coordinate, which is kept: the array has the layout of the
result. -/
theorem run_inPlace_iff_kept :
    longColumn.Valid ∧ (∃ blank, Tensor.zeros .small longColumn.layout = .ok blank) ∧
      ∃ after left, Executor.small.run Reduction.sum.opcode
          ⟨[longColumn], [], ⟨some [1], true, none⟩, true⟩ = .ok () after ∧
        after.output 0 = .ok left ∧ left.layout = longColumn.layout ∧
        left.toList? .i8 = .ok [⟨1⟩, ⟨2⟩] := by
  have hvalid : longColumn.Valid := ⟨addressable_packed (by decide) .rowMajor .i8, rfl, by decide⟩
  have hzeros : ∃ blank, Tensor.zeros .small longColumn.layout = .ok blank := ⟨_, rfl⟩
  have hseparate : Executor.small.run Reduction.sum.opcode
        ⟨[longColumn], [], ⟨some [1], true, none⟩, false⟩ =
      .ok () ⟨[longColumn], [some ⟨packed [2, 1] .rowMajor .i8, ⟨.i8, #[⟨1⟩, ⟨2⟩]⟩⟩],
        ⟨some [1], true, none⟩, false⟩ := rfl
  have hfree : (Invocation.mk [longColumn] [] ⟨some [1], true, none⟩ false).boundOutput? 0 =
      none := rfl
  obtain ⟨hiff, hagree⟩ := run_inPlace_iff hvalid hfree .small
    Reduction.sum.opcode fun _ ↦ hzeros
  obtain ⟨after, hrun⟩ := hiff.mpr ⟨⟨_, hseparate⟩, rfl⟩
  obtain ⟨left, made, values, hleft, hmade, hlayout, -, hvalues, hvalues'⟩ :=
    hagree after _ hrun hseparate
  cases hmade
  cases hvalues'
  exact ⟨hvalid, hzeros, after, left, hrun, hleft, hlayout, hvalues⟩

end Executor

end ArrayEngine
