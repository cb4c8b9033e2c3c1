import ArrayEngine.Proofs.Operation.LayoutIndependence
import ArrayEngine.Proofs.Operation.Writes

/-!
# Reductions along no axis

A reduction along no axis copies the elements of its input to an output of the same extents. The
copy has the list of elements of the input, but it is always row-major (`run_no_axes`): the elements
of a row-major array stay at their coordinates, so that any further operation makes of the copy what
it makes of the array, and those of a column-major one move (`run_no_axes_columnMajor`).
-/

namespace ArrayEngine

open Layout Reduction

namespace Executor

variable {platform : Platform} {workers : Workers} {reduction : Reduction}
  {invocation after : Invocation} {input output : Tensor}

section

variable (hinput : invocation.input 0 = .ok input) (hvalid : input.Valid)
  (haxes : invocation.params.axes = some []) (hplace : invocation.inPlace = false)

include hinput hvalid haxes hplace

/-- Along no axis, a reduction writes the elements of its input to an output of the same type. -/
theorem Made.toList?_of_no_axes {kernel : Kernel}
    (h : Made platform workers reduction.opcode invocation input output kernel)
    (hdtype : output.dtype = input.dtype) :
    output.layout = .packed input.extents .rowMajor input.dtype ∧
      output.toList? input.dtype = input.toList? input.dtype := by
  obtain ⟨-, hlayout, hkernel⟩ := h.of_reduction
  have hresolved : resolveAxes invocation.params.axes input.layout.rank = [] := by
    rw [haxes]
    rfl
  constructor
  · have houtput : output.layout.dtype = input.dtype := hdtype
    rw [outputLayout, hresolved, outputExtents_nil] at hlayout
    rw [hlayout] at houtput ⊢
    exact congrArg (packed input.extents .rowMajor) houtput
  · obtain ⟨β, strategy, heq⟩ := exists_reduceWith_of_kernel? workers hkernel
    have hconvert (tensor : Tensor) :
        kernel workers reduction.opcode (invocation.bindOutput 0 tensor) =
          Kernel.convert input.dtype output.dtype workers reduction.opcode
            (invocation.bindOutput 0 tensor) := by
      rw [heq]
      exact Kernel.reduceWith_bindOutput_eq_convert hinput hresolved rfl tensor
    obtain ⟨blank, hsucceeds⟩ := h.succeeds
    rcases Kernel.convert_writes_or_refuses hplace hinput hvalid rfl with
      ⟨values, -, hvalues, hwrites⟩ | ⟨error, hrefuses⟩
    · have houtput : output.toList? output.dtype = .ok values :=
        h.toList?_eq fun tensor ↦ (hconvert tensor).trans (hwrites tensor)
      exact hdtype ▸ houtput.trans (hvalues hdtype.symm).symm
    · exact absurd ((hconvert blank).symm.trans hsucceeds) hrefuses.ne_ok

/-- A reduction along no axis that succeeds with an output of the type of its input leaves a
row-major copy without gaps: it has the extents and the list of elements of the input, and at given
coordinates the element that the input has at the coordinates with the same number. The copy of a
row-major array has its elements at all coordinates. All further built-in operations then make of
the copy what they make of the array, if it has elements and not too many axes. -/
theorem run_no_axes (hfree : invocation.boundOutput? 0 = none)
    (hrun : (Executor.mk (.builtin platform) workers).run reduction.opcode invocation =
      .ok () after)
    (houtput : after.output 0 = .ok output) (hdtype : output.dtype = input.dtype) :
    output.Valid ∧ output.layout = .packed input.extents .rowMajor input.dtype ∧
      output.toList? input.dtype = input.toList? input.dtype ∧
      (∀ coords, InBox input.extents coords →
        output.patternAt? coords =
          input.patternAt? (input.layout.order.coords input.extents
            (Order.rowMajor.index input.extents coords))) ∧
      (input.layout.order = .rowMajor →
        output.SameElements input ∧
        (0 < input.size → input.layout.rank ≤ maxRank → ∀ others next outputs params,
          Update.outcome ((Executor.mk (.builtin platform) others).run next)
              ⟨[output], outputs, params, false⟩ =
            Update.outcome ((Executor.mk (.builtin platform) others).run next)
              ⟨[input], outputs, params, false⟩)) := by
  obtain ⟨made, kernel, rfl, hmade⟩ := exists_made hinput hvalid hplace hfree hrun
  rw [Invocation.output_bindOutput hplace] at houtput
  obtain rfl : output = made := (Except.ok.inj houtput).symm
  obtain ⟨hlayout, hlist⟩ := hmade.toList?_of_no_axes hinput hvalid haxes hplace hdtype
  obtain ⟨values, hvalues, -⟩ := hvalid.exists_toList? rfl
  have houtputs := hlist.trans hvalues
  have hextents : output.extents = input.extents := by
    rw [Tensor.extents, hlayout]
    rfl
  have horder : output.layout.order = .rowMajor := by
    rw [hlayout]
    rfl
  refine ⟨hmade.valid, hlayout, hlist, fun coords hbox ↦ ?_, fun hrowMajor ↦ ?_⟩
  · rw [hmade.valid.patternAt?_of_toList?_eq hvalid hextents houtputs hvalues (hextents ▸ hbox),
      hextents, horder]
  · have hsame : output.SameElements input :=
      hmade.valid.sameElements_of_toList?_eq hvalid hextents hdtype (horder.trans hrowMajor.symm)
        houtputs hvalues
    have hextents : output.layout.extents = input.layout.extents := hextents
    refine ⟨hsame, fun hpos hrank others next outputs params ↦ ?_⟩
    refine outcome_run_eq_of_order_eq hsame hmade.valid hvalid (horder.trans hrowMajor.symm) ?_ ?_
      platform others next outputs params
    · rwa [rank, hextents]
    · rwa [Tensor.size, size, hextents]

end

/-- The maximum along no axis of a row-major array with a gap, by a reduction that keeps the
dimensions. -/
theorem run_no_axes_gapped :
    (Tensor.gapped .rowMajor ⟨1⟩ ⟨2⟩ ⟨3⟩ ⟨4⟩).Valid ∧
      Executor.small.run max.opcode
          ⟨[.gapped .rowMajor ⟨1⟩ ⟨2⟩ ⟨3⟩ ⟨4⟩], [], ⟨some [], true, none⟩, false⟩ =
        .ok () ⟨[.gapped .rowMajor ⟨1⟩ ⟨2⟩ ⟨3⟩ ⟨4⟩],
          [some ⟨packed [2, 2] .rowMajor .i8, ⟨.i8, #[⟨1⟩, ⟨2⟩, ⟨3⟩, ⟨4⟩]⟩⟩],
          ⟨some [], true, none⟩, false⟩ ∧
      Tensor.SameElements ⟨packed [2, 2] .rowMajor .i8, ⟨.i8, #[⟨1⟩, ⟨2⟩, ⟨3⟩, ⟨4⟩]⟩⟩
        (.gapped .rowMajor ⟨1⟩ ⟨2⟩ ⟨3⟩ ⟨4⟩) := by
  have hvalid : (Tensor.gapped .rowMajor ⟨1⟩ ⟨2⟩ ⟨3⟩ ⟨4⟩).Valid := Tensor.valid_gapped _ _ _ _ _
  refine ⟨hvalid, ?hrun,
    ((run_no_axes rfl hvalid rfl rfl rfl ?hrun rfl rfl).2.2.2.2 rfl).1⟩
  rfl

/-- Four bytes without gaps, in this order. -/
def fourBytes (order : Order) : Tensor :=
  ⟨packed [2, 2] order .i8, ⟨.i8, #[⟨1⟩, ⟨2⟩, ⟨3⟩, ⟨4⟩]⟩⟩

/-- The sum along no axis of a column-major array: the second element of the first row is another
one afterwards. -/
theorem run_no_axes_columnMajor :
    Executor.small.run sum.opcode
        ⟨[fourBytes .columnMajor], [], ⟨some [], false, none⟩, false⟩ =
      .ok () ⟨[fourBytes .columnMajor], [some (fourBytes .rowMajor)],
        ⟨some [], false, none⟩, false⟩ ∧
      (fourBytes .columnMajor).patternAt? [0, 1] = some 3 ∧
      (fourBytes .rowMajor).patternAt? [0, 1] = some 2 :=
  ⟨rfl, rfl, rfl⟩

end Executor

end ArrayEngine
