import ArrayEngine.Proofs.Operation.Writes

/-!
# Results in bound outputs

The output of a run can be made for it, or it can be an array that the caller has bound. Of a bound
array, a run asks for the extents and the element type, but not for the order. Either way the same
elements are written one after another, each time in the order of the output itself, so that they
lie at the same coordinates if the orders agree (`run_bound`). In a bound array of the other order
they lie at others (`run_bound_columnMajor`).
-/

namespace ArrayEngine

open Layout

namespace Executor

variable {executor : Executor} {platform : Platform} {workers : Workers} {opcode : Nat}
  {invocation after : Invocation} {operation : Operation} {input output bound : Tensor}
  {inferred : Layout} {type : DType} {kernel : Kernel} {fresh : List (Nat × Tensor)}

section

variable (h : Prepared executor opcode invocation operation input [inferred] type kernel fresh)
  (hplace : invocation.inPlace = false)

include h hplace

/-- With any array of the inferred extents as the output, and of the type for which the kernel was
chosen, the checks find the same kernel, and nothing is left to make. -/
theorem Prepared.rebind (hdtype : bound.dtype = type)
    (hextents : bound.extents = inferred.extents) :
    Prepared executor opcode (invocation.bindOutput 0 bound) operation input [inferred] type kernel
      [] := by
  have hplace' := (invocation.inPlace_bindOutput 0 bound).trans hplace
  have hbound := invocation.boundOutput?_bindOutput 0 bound
  refine
    { operation_eq := h.operation_eq
      inputCount_eq := h.inputCount_eq
      inPlace := h.inPlace
      layouts_eq := h.layouts_eq
      outputCount_eq := h.outputCount_eq
      input_eq := h.input_eq
      furtherInputs_eq := h.furtherInputs_eq
      outputs_eq := ?_
      output_eq := hdtype ▸ outputType_of_bound hplace' hbound [inferred]
      kernel_eq := h.kernel_eq
      fresh_eq := ?_ }
  · refine bind_eq_ok.mpr ⟨(), ?_, rfl⟩
    simp only [checkOutput, hplace', hbound, Bool.false_eq_true, if_false]
    exact Error.raiseUnless_eq_ok.mpr hextents
  · simp only [freshOutputs, hplace', allocate, hbound, Bool.false_eq_true, if_false]

/-- If the run makes its output, any array of the inferred type and extents can take its place. -/
theorem Prepared.bindOutput (hfree : invocation.boundOutput? 0 = none)
    (hdtype : bound.dtype = inferred.dtype) (hextents : bound.extents = inferred.extents) :
    Prepared executor opcode (invocation.bindOutput 0 bound) operation input [inferred] type kernel
      [] := by
  have htype := (outputType_of_free hplace hfree inferred []).symm.trans h.output_eq
  exact h.rebind hplace (hdtype.trans (Except.ok.inj htype)) hextents

/-- The kernel starts with an array of the inferred extents and of the type for which it was chosen
as its output. It is the array that was bound, or it was made for the run. -/
theorem Prepared.exists_start :
    ∃ start, bindAll invocation fresh = invocation.bindOutput 0 start ∧
      start.dtype = type ∧ start.extents = inferred.extents ∧
      ∀ bound, invocation.boundOutput? 0 = some bound → start = bound := by
  cases hbound : invocation.boundOutput? 0 with
  | none =>
      obtain ⟨blank, hzeros, rfl⟩ := freshOutputs_singleton hplace hbound h.fresh_eq
      obtain rfl := Tensor.zeros_eq_ok hzeros
      have htype := (outputType_of_free hplace hbound inferred []).symm.trans h.output_eq
      exact ⟨_, rfl, Except.ok.inj htype, rfl, nofun⟩
  | some bound =>
      have hfresh := h.fresh_eq
      simp only [freshOutputs, hplace, allocate, hbound, Bool.false_eq_true, if_false] at hfresh
      cases hfresh
      obtain ⟨_, hcheck, -⟩ := bind_eq_ok.mp h.outputs_eq
      simp only [checkOutput, hplace, hbound, Bool.false_eq_true, if_false] at hcheck
      have htype := (outputType_of_bound hplace hbound [inferred]).symm.trans h.output_eq
      exact ⟨bound, (Invocation.bindOutput_self hbound).symm, Except.ok.inj htype,
        Error.raiseUnless_eq_ok.mp hcheck, fun _ ↦ Option.some.inj⟩

end

/-- If a built-in operation succeeds in making its output, it also succeeds with any array of the
same type and extents bound in its place, if each element of the array has a cell of its own. The
array then has the same list of elements, each array in its own order: at given coordinates there is
the element that the new array has at the coordinates with the same number. If the orders agree,
both have the same elements at all coordinates. -/
theorem run_bound (hinput : invocation.input 0 = .ok input) (hvalid : input.Valid)
    (hplace : invocation.inPlace = false) (hfree : invocation.boundOutput? 0 = none)
    (hrun : (Executor.mk (.builtin platform) workers).run opcode invocation = .ok () after)
    (houtput : after.output 0 = .ok output) (hbound : bound.Valid)
    (hdtype : bound.dtype = output.dtype) (hextents : bound.extents = output.extents)
    (hnodup : bound.layout.offsets.Nodup) :
    ∃ filled, (Executor.mk (.builtin platform) workers).run opcode (invocation.bindOutput 0 bound) =
        .ok () (invocation.bindOutput 0 filled) ∧
      filled.layout = bound.layout ∧
      filled.toList? output.dtype = output.toList? output.dtype ∧
      (∀ coords, InBox output.extents coords →
        filled.patternAt? coords =
          output.patternAt? (output.layout.order.coords output.extents
            (bound.layout.order.index output.extents coords))) ∧
      (bound.layout.order = output.layout.order → filled.SameElements output) := by
  obtain ⟨made, kernel, rfl, hmade⟩ := exists_made hinput hvalid hplace hfree hrun
  rw [Invocation.output_bindOutput hplace] at houtput
  obtain rfl : output = made := (Except.ok.inj houtput).symm
  obtain ⟨operation, fresh, hprepared⟩ := hmade.prepared
  obtain ⟨values, hwrites⟩ := hmade.writes
  have hvalues := hmade.toList?_eq hwrites
  have hlength : values.length = bound.size := by
    obtain ⟨elements, helements, hlength⟩ := hmade.valid.exists_toList? rfl
    obtain rfl := Except.ok.inj (hvalues.symm.trans helements)
    rw [hlength, Tensor.size, Tensor.size, size, size]
    exact congrArg volume hextents.symm
  obtain ⟨filled, hwrite⟩ := hbound.exists_write hdtype hlength
  have hfilled := hbound.of_write hwrite
  have hlist := hbound.toList?_of_write hnodup hwrite
  have hlayout : filled.layout = bound.layout := by
    obtain ⟨_, cells, _, rfl⟩ := Tensor.write_eq_ok_iff.mp hwrite
    rfl
  have hextents' : filled.extents = output.extents := by
    rw [Tensor.extents, hlayout]
    exact hextents
  have hrun' := run_eq_ok_iff.mpr ⟨kernel, [], prepare_eq_ok_iff.mpr
    ⟨operation, input, [output.layout], output.dtype,
      hprepared.bindOutput hplace hfree hdtype hextents⟩,
    hwrites.eq_ok hplace hwrite⟩
  refine ⟨filled, hrun', hlayout, hlist.trans hvalues.symm, fun coords hbox ↦ ?_, fun horder ↦ ?_⟩
  · rw [hfilled.patternAt?_of_toList?_eq hmade.valid hextents' hlist hvalues
      (hextents'.symm ▸ hbox), hextents', hlayout]
  · have hdtype' : filled.dtype = output.dtype := by
      rw [Tensor.dtype, hlayout]
      exact hdtype
    exact hfilled.sameElements_of_toList?_eq hmade.valid hextents' hdtype' (hlayout ▸ horder) hlist
      hvalues

/-- The sums along the first axis of a cube. -/
def cubeSums (outputs : List (Option Tensor)) : Invocation :=
  ⟨[.cube], outputs, ⟨some [0], false, none⟩, false⟩

/-- The sums one after another in an array without gaps. -/
def fourSums (order : Order) : Tensor :=
  ⟨packed [2, 2] order .i8, ⟨.i8, #[⟨6⟩, ⟨8⟩, ⟨10⟩, ⟨12⟩]⟩⟩

/-- An array with a gap behind its first row, to be bound for the sums. -/
def gappedBound : Tensor :=
  .gapped .rowMajor ⟨90⟩ ⟨91⟩ ⟨92⟩ ⟨93⟩

/-- The sums are the same in a new array and in one with a gap. -/
theorem run_bound_gapped :
    gappedBound.layout.offsets.Nodup ∧
      ∃ filled, Executor.small.run Reduction.sum.opcode (cubeSums [some gappedBound]) =
          .ok () (cubeSums [some filled]) ∧
        filled.layout = gappedBound.layout ∧ filled.SameElements (fourSums .rowMajor) := by
  have hbound : gappedBound.Valid := Tensor.valid_gapped _ _ _ _ _
  have hnodup : gappedBound.layout.offsets.Nodup := by decide
  have hrun : Executor.small.run Reduction.sum.opcode (cubeSums []) =
      .ok () (cubeSums [some (fourSums .rowMajor)]) := rfl
  obtain ⟨filled, hfilled, hlayout, -, -, hsame⟩ :=
    run_bound rfl Tensor.valid_cube rfl rfl hrun rfl hbound rfl rfl hnodup
  exact ⟨hnodup, filled, hfilled, hlayout, hsame rfl⟩

/-- The same sums in a column-major array without gaps: the run succeeds as well, but the second
element of the first row is another one than in a new array. -/
theorem run_bound_columnMajor :
    (packed [2, 2] .columnMajor .i8).offsets.Nodup ∧
      Executor.small.run Reduction.sum.opcode (cubeSums []) =
        .ok () (cubeSums [some (fourSums .rowMajor)]) ∧
      Executor.small.run Reduction.sum.opcode
          (cubeSums [some ⟨packed [2, 2] .columnMajor .i8, ⟨.i8, #[⟨0⟩, ⟨0⟩, ⟨0⟩, ⟨0⟩]⟩⟩]) =
        .ok () (cubeSums [some (fourSums .columnMajor)]) ∧
      (fourSums .rowMajor).patternAt? [0, 1] = some 8 ∧
      (fourSums .columnMajor).patternAt? [0, 1] = some 10 :=
  ⟨by decide, rfl, rfl, rfl, rfl⟩

end Executor

end ArrayEngine
