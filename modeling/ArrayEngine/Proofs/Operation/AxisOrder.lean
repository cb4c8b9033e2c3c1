import ArrayEngine.Proofs.Layout.SplitFailure
import ArrayEngine.Proofs.Operation.LayoutIndependence
import ArrayEngine.Proofs.Operation.Parameters
import ArrayEngine.Proofs.Operation.Writes

/-!
# The order of the axes and the kept dimensions

A reduction goes through the list of its axes several times: to mark them, to infer the extents of
the result, and to split its input. None of this depends on the order of the list, as long as no
axis is listed twice (`DistinctAxes.splitAlong_perm`). Whether the reduced axes are kept in the
shape of the result is not known to the kernel at all, so that the elements and their order are the
same either way (`run_axes`).
-/

namespace ArrayEngine

open Layout Reduction

namespace Layout

variable {rank : Nat} {axes others : List Nat} {layout : Layout}

/-- Only distinct axes can be marked. -/
theorem distinctAxes_of_axisMask {mask : List Bool} (h : axisMask axes rank = .ok mask) :
    DistinctAxes rank axes := by
  by_contra hoffends
  obtain ⟨passed, axis, rest, rfl, hpassed, hreason⟩ := exists_first_offending hoffends
  obtain ⟨hlarge, hrepeated⟩ := hpassed.axisMask_append rest
  rcases hreason with hrank | hmem
  · cases h.symm.trans (hlarge hrank)
  · cases h.symm.trans (hrepeated hmem)

section

variable (hperm : axes.Perm others)

include hperm

/-- The same axes in another order are just as distinct. -/
theorem DistinctAxes.of_perm (h : DistinctAxes rank axes) : DistinctAxes rank others :=
  ⟨hperm.nodup_iff.mp h.1, fun axis hmem ↦ h.2 axis (hperm.mem_iff.mpr hmem)⟩

theorem listed_perm (rank : Nat) : listed axes rank = listed others rank :=
  List.map_congr_left fun _ _ ↦ hperm.contains_eq

theorem DistinctAxes.axisMask_perm (h : DistinctAxes rank axes) :
    axisMask axes rank = axisMask others rank := by
  rw [h.axisMask_eq, (h.of_perm hperm).axisMask_eq, listed_perm hperm]

/-- The order of distinct axes does not matter to how they split a layout. -/
theorem DistinctAxes.splitAlong_perm (h : DistinctAxes layout.rank axes) :
    layout.splitAlong axes = layout.splitAlong others := by
  have hnil : axes = [] ↔ others = [] := by
    rw [← List.length_eq_zero_iff, hperm.length_eq, List.length_eq_zero_iff]
  simp only [h.splitAlong_eq, (h.of_perm hperm).splitAlong_eq, hnil, hperm.length_eq,
    listed_perm hperm]

end

end Layout

namespace Reduction

theorem outputExtents_perm {axes others : List Nat} (hperm : axes.Perm others)
    (extents : List Nat) (keepDims : Bool) :
    outputExtents extents axes keepDims = outputExtents extents others keepDims := by
  simp only [outputExtents, hperm.contains_eq]

theorem outputExtents_kept (extents axes : List Nat) :
    outputExtents extents axes true =
      extents.mapIdx fun axis extent ↦ if axis ∈ axes then 1 else extent := by
  simp only [outputExtents, List.contains_iff_mem, if_true]

theorem outputExtents_dropped (extents axes : List Nat) :
    outputExtents extents axes false =
      (extents.zipIdx.filter fun (_, axis) ↦ axis ∉ axes).map Prod.fst := by
  simp [outputExtents]

end Reduction

/-! ## Runs with other parameters -/

/-- What a change shows does not depend on the parameters that it leaves. -/
theorem Update.outcome_of_leaving {ε : Type} {update : EStateM ε Invocation Unit}
    {invocation : Invocation} {params : Params}
    (h : update (invocation.withParams params) =
      Update.leaving (·.withParams params) (update invocation)) :
    Update.outcome update (invocation.withParams params) = Update.outcome update invocation := by
  rw [outcome, outcome, h]
  cases update invocation <;> rfl

/-- With parameters that split the input alike, a reduction writes the same elements. -/
theorem Kernel.Writes.withParams {workers : Workers} {opcode : Nat} {invocation : Invocation}
    {params : Params} {input output : DType} {β : Type}
    {strategy : Strategy (Scalar input) β (Scalar output)} {kernel : Kernel}
    {values : List (Scalar output)} (h : kernel.Writes workers opcode invocation values)
    (heq : kernel workers opcode = reduceWith strategy workers opcode)
    (hsplit : invocation.SplitsAlike params) :
    kernel.Writes workers opcode (invocation.withParams params) values := by
  intro tensor
  rw [heq, reduceWith_bindOutput_withParams strategy hsplit, ← heq, h tensor,
    Invocation.bindOutput_withParams, Invocation.updateOutput_withParams]

namespace Executor

variable {platform : Platform} {workers : Workers} {reduction : Reduction} {input : Tensor}
  {outputs : List (Option Tensor)} {params : Params} {dtype : Option DType}

/-- The order of distinct axes does not matter to a run. -/
theorem outcome_run_perm {axes others : Option (List Nat)} {keepDims : Bool}
    (hdistinct : DistinctAxes input.layout.rank (resolveAxes axes input.layout.rank))
    (hperm : (resolveAxes axes input.layout.rank).Perm (resolveAxes others input.layout.rank)) :
    Update.outcome ((Executor.mk (.builtin platform) workers).run reduction.opcode)
        ⟨[input], outputs, ⟨others, keepDims, dtype⟩, false⟩ =
      Update.outcome ((Executor.mk (.builtin platform) workers).run reduction.opcode)
        ⟨[input], outputs, ⟨axes, keepDims, dtype⟩, false⟩ := by
  have hsource : Invocation.input ⟨[input], outputs, ⟨axes, keepDims, dtype⟩, false⟩ 0 =
      .ok input := rfl
  refine Update.outcome_of_leaving (run_reduction_withParams hsource ?_ ?_ ?_)
  · exact (hdistinct.axisMask_perm hperm).symm
  · simp only [outputLayout, outputExtents_perm hperm]
  · exact (hdistinct.splitAlong_perm hperm).symm

/-- A run that succeeds has found its axes to be distinct. -/
theorem distinctAxes_of_outcome {left : List (Option Tensor)}
    (h : Update.outcome ((Executor.mk (.builtin platform) workers).run reduction.opcode)
      ⟨[input], outputs, params, false⟩ = .ok left) :
    DistinctAxes input.layout.rank (resolveAxes params.axes input.layout.rank) := by
  cases hmask : axisMask (resolveAxes params.axes input.layout.rank) input.layout.rank with
  | ok mask => exact distinctAxes_of_axisMask hmask
  | error error =>
      rw [Update.outcome, run_of_axisMask_error hmask] at h
      cases h

/-- Whatever the kernel writes are the elements of the output, under any name of their type. -/
theorem Made.toList?_of_dtype_eq {opcode : Nat} {invocation : Invocation} {output : Tensor}
    {kernel : Kernel} {requested : DType}
    (h : Made platform workers opcode invocation input output kernel)
    (hdtype : output.dtype = requested) {values : List (Scalar requested)}
    (hwrites : kernel.Writes workers opcode invocation values) :
    output.toList? requested = .ok values := by
  subst hdtype
  exact h.toList?_eq hwrites

/-- Two reductions of one array along the same axes, of which one keeps the reduced axes in the
shape of its output, have made outputs with the same list of elements. -/
theorem Made.toList?_of_keepDims {axes : Option (List Nat)} {output other : Tensor}
    {kernel kernel' : Kernel}
    (hkept : Made platform workers reduction.opcode ⟨[input], outputs, ⟨axes, true, dtype⟩, false⟩
      input output kernel)
    (hdropped : Made platform workers reduction.opcode
      ⟨[input], outputs, ⟨axes, false, dtype⟩, false⟩ input other kernel') :
    other.dtype = output.dtype ∧ ∃ values, output.toList? output.dtype = .ok values ∧
      other.toList? output.dtype = .ok values := by
  obtain ⟨-, hlayout, hkernel⟩ := hkept.of_reduction
  obtain ⟨-, hlayout', hkernel'⟩ := hdropped.of_reduction
  have hdtype : other.dtype = output.dtype := by
    rw [Tensor.dtype, Tensor.dtype, hlayout, hlayout']
    rfl
  obtain ⟨β, strategy, heq⟩ := exists_reduceWith_of_kernel? workers hkernel
  -- The kernel is chosen by the types alone, so that both runs have found the same one.
  rw [hdtype, hkernel] at hkernel'
  cases hkernel'
  obtain ⟨values, hwrites⟩ := hkept.writes
  have hsplit : Invocation.SplitsAlike ⟨[input], outputs, ⟨axes, true, dtype⟩, false⟩
      ⟨axes, false, dtype⟩ := fun _ _ ↦ rfl
  exact ⟨hdtype, values, hkept.toList?_eq hwrites,
    hdropped.toList?_of_dtype_eq hdtype (hwrites.withParams heq hsplit)⟩

/-- Neither the order in which the axes are listed nor whether they are kept in the shape of the
output has an influence on the elements that a reduction without a bound output makes. If a run
succeeds with one list of axes, it succeeds and leaves the same outputs with the axes in any other
order; without a list, a run shows what it shows for any list of all axes. If the run succeeds both
with the reduced axes kept and without them, its outputs have the same list of elements. The first
one has the extents of the input with a single coordinate on the reduced axes, the second one the
extents of the axes that are not reduced. -/
theorem run_axes (hvalid : input.Valid) (hfree : (outputs[0]?).join = none) (platform : Platform)
    (workers : Workers) (reduction : Reduction) (dtype : Option DType) :
    (∀ listed reordered keepDims left, listed.Perm reordered →
      Update.outcome ((Executor.mk (.builtin platform) workers).run reduction.opcode)
          ⟨[input], outputs, ⟨some listed, keepDims, dtype⟩, false⟩ = .ok left →
        Update.outcome ((Executor.mk (.builtin platform) workers).run reduction.opcode)
          ⟨[input], outputs, ⟨some reordered, keepDims, dtype⟩, false⟩ = .ok left) ∧
    (∀ listed keepDims, listed.Perm (List.range input.layout.rank) →
      Update.outcome ((Executor.mk (.builtin platform) workers).run reduction.opcode)
          ⟨[input], outputs, ⟨none, keepDims, dtype⟩, false⟩ =
        Update.outcome ((Executor.mk (.builtin platform) workers).run reduction.opcode)
          ⟨[input], outputs, ⟨some listed, keepDims, dtype⟩, false⟩) ∧
    ∀ axes kept dropped,
      (Executor.mk (.builtin platform) workers).run reduction.opcode
          ⟨[input], outputs, ⟨axes, true, dtype⟩, false⟩ = .ok () kept →
        (Executor.mk (.builtin platform) workers).run reduction.opcode
          ⟨[input], outputs, ⟨axes, false, dtype⟩, false⟩ = .ok () dropped →
        ∃ output other values, kept.output 0 = .ok output ∧ dropped.output 0 = .ok other ∧
          other.dtype = output.dtype ∧ output.toList? output.dtype = .ok values ∧
          other.toList? output.dtype = .ok values ∧
          output.extents = (input.extents.mapIdx fun axis extent ↦
            if axis ∈ resolveAxes axes input.layout.rank then 1 else extent) ∧
          other.extents = (input.extents.zipIdx.filter fun (_, axis) ↦
            axis ∉ resolveAxes axes input.layout.rank).map Prod.fst := by
  refine ⟨fun listed reordered keepDims left hperm hrun ↦ ?_, fun listed keepDims hperm ↦ ?_,
    fun axes kept dropped hkept hdropped ↦ ?_⟩
  · refine (outcome_run_perm (distinctAxes_of_outcome hrun) ?_).trans hrun
    exact hperm
  · have hdistinct : DistinctAxes input.layout.rank listed :=
      (distinctAxes_range input.layout.rank).of_perm hperm.symm
    refine outcome_run_perm ?_ ?_
    · exact hdistinct
    · exact hperm
  · have hslot (keepDims : Bool) : Invocation.boundOutput?
        ⟨[input], outputs, ⟨axes, keepDims, dtype⟩, false⟩ 0 = none := hfree
    obtain ⟨output, kernel, rfl, hmade⟩ := exists_made rfl hvalid rfl (hslot true) hkept
    obtain ⟨other, kernel', rfl, hmade'⟩ := exists_made rfl hvalid rfl (hslot false) hdropped
    obtain ⟨hdtype, values, hlist, hlist'⟩ := hmade.toList?_of_keepDims hmade'
    obtain ⟨-, hlayout, -⟩ := hmade.of_reduction
    obtain ⟨-, hlayout', -⟩ := hmade'.of_reduction
    refine ⟨output, other, values, Invocation.output_bindOutput rfl,
      Invocation.output_bindOutput rfl, hdtype, hlist, hlist', ?_, ?_⟩
    · rw [Tensor.extents, hlayout]
      exact outputExtents_kept _ _
    · rw [Tensor.extents, hlayout']
      exact outputExtents_dropped _ _

/-- What the sums of a cube along these axes show. -/
def sumsOfCube (axes : Option (List Nat)) (keepDims : Bool) :
    Except Failure (List (Option Tensor)) :=
  Update.outcome (Executor.small.run Reduction.sum.opcode)
    ⟨[.cube], [], ⟨axes, keepDims, none⟩, false⟩

/-- Sums of a cube along its outer axes, which are listed in either order, and once with a list of
all axes and once without a list. -/
theorem run_axes_outer :
    Tensor.cube.Valid ∧
      sumsOfCube (some [0, 2]) false =
        .ok [some ⟨packed [2] .rowMajor .i8, ⟨.i8, #[⟨14⟩, ⟨22⟩]⟩⟩] ∧
      sumsOfCube none true = sumsOfCube (some [1, 2, 0]) true ∧
      ∃ values,
        Tensor.toList? ⟨packed [1, 2, 1] .rowMajor .i8, ⟨.i8, #[⟨14⟩, ⟨22⟩]⟩⟩ .i8 = .ok values ∧
        Tensor.toList? ⟨packed [2] .rowMajor .i8, ⟨.i8, #[⟨14⟩, ⟨22⟩]⟩⟩ .i8 = .ok values := by
  have hfree : (([] : List (Option Tensor))[0]?).join = none := rfl
  obtain ⟨hreorder, hall, hkeep⟩ := run_axes Tensor.valid_cube hfree .small .small .sum none
  obtain ⟨output, other, values, houtput, hother, -, hlist, hlist', -, -⟩ :=
    hkeep (some [2, 0]) _ _ rfl rfl
  cases houtput
  cases hother
  exact ⟨Tensor.valid_cube, hreorder [2, 0] [0, 2] false _ (List.Perm.swap 0 2 []) rfl,
    hall [1, 2, 0] true (by decide), values, hlist, hlist'⟩

end Executor

end ArrayEngine
