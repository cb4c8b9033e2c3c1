import ArrayEngine.Proofs.Operation.Reachable

/-!
# What a kernel leaves alone

A kernel that is run without checks meets whatever invocation the caller has at hand: arrays may be
missing, of another type than the kernel is for, or of the wrong shape. A built-in kernel that fails
on it has changed nothing, and one that succeeds has changed no more than the cells of the elements
of the first output (`Invocation.SameBesideOutput`). `runKernel_frame` says so without assuming
anything of the invocation.
-/

namespace ArrayEngine

open Layout

/-! ## Arrays -/

namespace Tensor

variable {tensor left : Tensor}

/-- The arrays have the same layout, and buffers of the same type and size that differ in no cell
but those of the elements. -/
def SameBesideElements (tensor left : Tensor) : Prop :=
  ∃ (dtype : DType) (cells written : Array (Scalar dtype)),
    tensor = ⟨tensor.layout, ⟨dtype, cells⟩⟩ ∧ left = ⟨tensor.layout, ⟨dtype, written⟩⟩ ∧
      written.size = cells.size ∧
      ∀ offset, offset ∉ tensor.layout.offsets → written[offset]? = cells[offset]?

theorem SameBesideElements.refl (tensor : Tensor) : tensor.SameBesideElements tensor :=
  ⟨tensor.storage.dtype, tensor.storage.cells, tensor.storage.cells, rfl, rfl, rfl, fun _ _ ↦ rfl⟩

/-- If the layout can be addressed, the cells that may differ are those at which some coordinates
lie. -/
theorem SameBesideElements.getElem?_eq (h : tensor.SameBesideElements left)
    (hlayout : tensor.layout.Addressable) :
    ∃ (dtype : DType) (cells written : Array (Scalar dtype)),
      tensor.storage = ⟨dtype, cells⟩ ∧ left.storage = ⟨dtype, written⟩ ∧
        ∀ {offset : Nat},
          (∀ {coords : List Nat}, InBox tensor.extents coords →
            tensor.layout.offsetAt coords ≠ offset) → written[offset]? = cells[offset]? := by
  obtain ⟨dtype, cells, written, hcells, hwritten, -, hsame⟩ := h
  refine ⟨dtype, cells, written, congrArg storage hcells, congrArg storage hwritten, ?_⟩
  intro offset hgap
  refine hsame offset fun hmem ↦ ?_
  rw [hlayout.offsets_eq] at hmem
  obtain ⟨coords, hcoords, hoffset⟩ := List.mem_map.mp hmem
  exact hgap (mem_coordinates.mp hcoords) hoffset

theorem Written.sameBesideElements (h : tensor.Written left) : tensor.SameBesideElements left := by
  obtain ⟨dtype, values, hwrite⟩ := h
  obtain ⟨-, cells, hstorage, rfl⟩ := write_eq_ok_iff.mp hwrite
  refine ⟨dtype, cells, _, ?_, rfl, size_scatter .., fun _ ↦ getElem?_scatter_of_notMem⟩
  rw [← hstorage]

end Tensor

/-! ## Invocations -/

namespace Invocation

variable {before after : Invocation} {tensor left : Tensor}

/-- The invocations differ in nothing but the elements of the first output, which is the first input
in place. -/
structure SameBesideOutput (before after : Invocation) : Prop where
  params_eq : after.params = before.params
  inPlace_eq : after.inPlace = before.inPlace
  inputs_eq : before.inPlace = false → after.inputs = before.inputs
  outputs_eq : before.inPlace = true → after.outputs = before.outputs
  length_eq : after.inputs.length = before.inputs.length ∧
    after.outputs.length = before.outputs.length
  other {slot : Nat} : slot ≠ 0 →
    after.inputs[slot]? = before.inputs[slot]? ∧ after.outputs[slot]? = before.outputs[slot]?
  first : ∃ tensor left, before.output? 0 = some tensor ∧ after.output? 0 = some left ∧
    tensor.SameBesideElements left

/-- The output of a slot can be replaced if it has one. -/
theorem output?_replaceOutput {slot : Nat} (h : before.output? slot = some tensor)
    (left : Tensor) : (before.replaceOutput slot left).output? slot = some left := by
  unfold output? at h
  unfold replaceOutput
  split at h
  · rename_i hplace
    obtain ⟨hslot, _⟩ := List.getElem?_eq_some_iff.mp h
    simp only [hplace, if_true, output?]
    exact List.getElem?_set_self hslot
  · rename_i hplace
    obtain ⟨hslot, _⟩ := List.getElem?_eq_some_iff.mp (Option.join_eq_some_iff.mp h)
    simp only [hplace, Bool.false_eq_true, if_false, output?, boundOutput?]
    rw [List.getElem?_set_self hslot, Option.join_some]

/-- Replacing the first output changes nothing else. -/
theorem sameBesideOutput_replaceOutput (h : before.output? 0 = some tensor)
    (hleft : tensor.SameBesideElements left) :
    before.SameBesideOutput (before.replaceOutput 0 left) := by
  have hfirst := output?_replaceOutput h left
  have hother {α : Type} (entries : List α) (entry : α) {slot : Nat} (hslot : slot ≠ 0) :
      (entries.set 0 entry)[slot]? = entries[slot]? := List.getElem?_set_ne hslot.symm
  cases hplace : before.inPlace with
  | true =>
      have hreplaced : before.replaceOutput 0 left =
          { before with inputs := before.inputs.set 0 left } := if_pos hplace
      rw [hreplaced] at hfirst ⊢
      exact
        { params_eq := rfl
          inPlace_eq := rfl
          inputs_eq := fun hseparate ↦ by simp [hplace] at hseparate
          outputs_eq := fun _ ↦ rfl
          length_eq := ⟨List.length_set, rfl⟩
          other := fun hslot ↦ ⟨hother _ _ hslot, rfl⟩
          first := ⟨tensor, left, h, hfirst, hleft⟩ }
  | false =>
      have hreplaced : before.replaceOutput 0 left =
          { before with outputs := before.outputs.set 0 (some left) } :=
        if_neg (by simp [hplace])
      rw [hreplaced] at hfirst ⊢
      exact
        { params_eq := rfl
          inPlace_eq := rfl
          inputs_eq := fun _ ↦ rfl
          outputs_eq := fun haliased ↦ by simp [hplace] at haliased
          length_eq := ⟨rfl, List.length_set⟩
          other := fun hslot ↦ ⟨rfl, hother _ _ hslot⟩
          first := ⟨tensor, left, h, hfirst, hleft⟩ }

end Invocation

/-! ## Kernels -/

/-- A built-in kernel that succeeds has changed nothing but the elements of the first output. -/
theorem Kernel.IsBuiltin.sameBesideOutput {input output : DType} {kernel : Kernel}
    (hkernel : IsBuiltin input output kernel) {workers : Workers} {opcode : Nat}
    {invocation after : Invocation} (h : kernel workers opcode invocation = .ok () after) :
    invocation.SameBesideOutput after := by
  obtain ⟨tensor, left, houtput, hwritten, rfl⟩ := hkernel.written h
  refine Invocation.sameBesideOutput_replaceOutput houtput ?_
  rcases hwritten with rfl | hwritten
  · exact .refl left
  · exact hwritten.sameBesideElements

namespace Executor

/-- A kernel of the built-in operations is run without checks on any invocation, for any opcode and
pair of types. If it fails, the invocation is as before. If it succeeds, there is a first output,
and nothing has changed but its cells at the offsets that its layout lists; in a layout that can be
addressed, these are the cells of its coordinates. -/
theorem runKernel_frame (platform : Platform) (workers : Workers) (opcode : Nat)
    (input output : DType) (invocation : Invocation) :
    (∀ {error : Error} {after : Invocation},
      (Executor.mk (.builtin platform) workers).runKernel opcode input output invocation =
        .error error after → after = invocation) ∧
    ∀ {after : Invocation},
      (Executor.mk (.builtin platform) workers).runKernel opcode input output invocation =
        .ok () after →
      invocation.SameBesideOutput after ∧
      ∀ {tensor left : Tensor}, invocation.output? 0 = some tensor → after.output? 0 = some left →
        tensor.layout.Addressable →
        ∃ (dtype : DType) (cells written : Array (Scalar dtype)),
          tensor.storage = ⟨dtype, cells⟩ ∧ left.storage = ⟨dtype, written⟩ ∧
            ∀ {offset : Nat},
              (∀ {coords : List Nat}, InBox tensor.extents coords →
                tensor.layout.offsetAt coords ≠ offset) → written[offset]? = cells[offset]? := by
  rcases runKernel_cases ⟨.builtin platform, workers⟩ opcode input output invocation with
    ⟨cause, hfails⟩ | ⟨kernel, hfound, hruns⟩
  · rw [hfails]
    refine ⟨?_, fun hsuccess ↦ by cases hsuccess⟩
    rintro error after ⟨⟩
    rfl
  · obtain ⟨_, _, _, hkernel⟩ := kernelFor_eq_ok_iff.mp hfound
    have hbuiltin := Registry.isBuiltin_of_kernel? hkernel
    rw [hruns]
    refine ⟨fun hfailure ↦ hbuiltin.atomic _ _ _ _ _ hfailure, fun hsuccess ↦ ?_⟩
    have hsame := hbuiltin.sameBesideOutput hsuccess
    refine ⟨hsame, fun {tensor left} htensor hleft hlayout ↦ ?_⟩
    obtain ⟨before, changed, hbefore, hchanged, helements⟩ := hsame.first
    cases hbefore.symm.trans htensor
    cases hchanged.symm.trans hleft
    exact helements.getElem?_eq hlayout

/-- The copy of two numbers. -/
def copyTwo (outputs : List (Option Tensor)) : Invocation :=
  ⟨[⟨packed [2] .rowMajor .i8, ⟨.i8, #[⟨7⟩, ⟨8⟩]⟩⟩], outputs, {}, false⟩

/-- An array of two numbers with a gap between them. -/
def gappedPair (first second : Scalar .i8) : Tensor :=
  ⟨make [2] [2] .rowMajor .i8, ⟨.i8, #[first, ⟨91⟩, second]⟩⟩

/-- Two numbers are copied around a gap of the first output, and nothing else changes. Without a
first output there is nothing to copy to, and the invocation stays as it is. -/
theorem runKernel_frame_gapped :
    (copyTwo [some (gappedPair ⟨90⟩ ⟨92⟩), none]).SameBesideOutput
        (copyTwo [some (gappedPair ⟨7⟩ ⟨8⟩), none]) ∧
      ∃ error after,
        Executor.small.runKernel Transform.assign.opcode .i8 .i8 (copyTwo []) =
          .error error after ∧
        after = copyTwo [] := by
  have hsuccess : Executor.small.runKernel Transform.assign.opcode .i8 .i8
        (copyTwo [some (gappedPair ⟨90⟩ ⟨92⟩), none]) =
      .ok () (copyTwo [some (gappedPair ⟨7⟩ ⟨8⟩), none]) := rfl
  have hfailure : Executor.small.runKernel Transform.assign.opcode .i8 .i8 (copyTwo []) =
      .error (Invocation.missingOutput 0) (copyTwo []) := rfl
  exact ⟨((runKernel_frame _ _ _ _ _ _).2 hsuccess).1, _, _, hfailure,
    (runKernel_frame _ _ _ _ _ _).1 hfailure⟩

end Executor

end ArrayEngine
