import ArrayEngine.Operation.Executor
import ArrayEngine.Proofs.Tensor

/-!
# Checked runs

`Executor.Prepared` collects what the checks before a run have found, and `prepare_eq_ok_iff` says
that the checks succeed exactly then. `run_eq_ok_iff` reduces a run to its checks and the kernel
that they have chosen.
-/

namespace ArrayEngine

namespace Invocation

variable {invocation : Invocation} {slot : Nat} {tensor left : Tensor}

theorem boundOutput?_bindOutput (invocation : Invocation) (slot : Nat) (tensor : Tensor) :
    (invocation.bindOutput slot tensor).boundOutput? slot = some tensor := by
  have hslot : slot < (invocation.outputs ++
      List.replicate (slot + 1 - invocation.outputs.length) none).length := by
    rw [List.length_append, List.length_replicate]
    omega
  rw [boundOutput?, bindOutput, List.getElem?_set_self hslot, Option.join_some]

/-- Binding the array that is bound already changes nothing. -/
theorem bindOutput_self (h : invocation.boundOutput? slot = some tensor) :
    invocation.bindOutput slot tensor = invocation := by
  obtain ⟨inputs, outputs, params, inPlace⟩ := invocation
  have hslot : outputs[slot]? = some (some tensor) := Option.join_eq_some_iff.mp h
  obtain ⟨hlt, hget⟩ := List.getElem?_eq_some_iff.mp hslot
  have hpadding : slot + 1 - outputs.length = 0 := by omega
  rw [bindOutput]
  simp only [hpadding, List.replicate_zero, List.append_nil, ← hget, List.set_getElem_self]

/-- An output that is bound again takes the place of the first one. -/
theorem bindOutput_bindOutput (invocation : Invocation) (slot : Nat) (tensor left : Tensor) :
    (invocation.bindOutput slot tensor).bindOutput slot left = invocation.bindOutput slot left := by
  have hpadding : slot + 1 - (invocation.bindOutput slot tensor).outputs.length = 0 := by
    rw [bindOutput, List.length_set, List.length_append, List.length_replicate]
    omega
  rw [bindOutput, hpadding, List.replicate_zero, List.append_nil, bindOutput, List.set_set,
    bindOutput]

@[simp] theorem inPlace_bindOutput (invocation : Invocation) (slot : Nat) (tensor : Tensor) :
    (invocation.bindOutput slot tensor).inPlace = invocation.inPlace := rfl

@[simp] theorem input_bindOutput (invocation : Invocation) (slot : Nat) (tensor : Tensor)
    (place : Nat) :
    (invocation.bindOutput slot tensor).input place = invocation.input place := rfl

theorem output?_bindOutput (hplace : invocation.inPlace = false) :
    (invocation.bindOutput slot tensor).output? slot = some tensor := by
  rw [output?, inPlace_bindOutput, hplace, if_neg (by simp), boundOutput?_bindOutput]

/-- Replacing an output right after it was bound is the same as binding the other array. -/
theorem replaceOutput_bindOutput (hplace : invocation.inPlace = false) :
    (invocation.bindOutput slot tensor).replaceOutput slot left =
      invocation.bindOutput slot left := by
  have hbound : ¬(invocation.bindOutput slot tensor).inPlace := by
    show ¬invocation.inPlace
    simp [hplace]
  rw [replaceOutput, if_neg hbound, bindOutput, bindOutput, List.set_set]

/-- A change of an output right after it was bound. -/
theorem updateOutput_bindOutput (hplace : invocation.inPlace = false) {update : Update Tensor}
    (h : update tensor = .ok () left) :
    updateOutput slot update (invocation.bindOutput slot tensor) =
      .ok () (invocation.bindOutput slot left) := by
  simp only [updateOutput, output?_bindOutput hplace, h, replaceOutput_bindOutput hplace]

/-- A successful change of an output replaces it by what the change makes of it. -/
theorem exists_of_updateOutput {update : Update Tensor} {after : Invocation}
    (h : updateOutput slot update invocation = .ok () after) :
    ∃ tensor left, invocation.output? slot = some tensor ∧ update tensor = .ok () left ∧
      after = invocation.replaceOutput slot left := by
  unfold updateOutput at h
  split at h
  · cases h
  · rename_i tensor htensor
    split at h
    · cases h
    · rename_i left hleft
      cases h
      exact ⟨tensor, left, htensor, hleft, rfl⟩

/-- In place, the output of a slot is its input. -/
theorem output?_of_slotPair (h : invocation.slotPair slot = .ok (.aliased tensor)) :
    invocation.output? slot = some tensor := by
  unfold slotPair at h
  unfold output?
  cases hinput : invocation.inputs[slot]? with
  | none =>
      rw [hinput] at h
      cases h
  | some input =>
      cases hplace : invocation.inPlace with
      | true =>
          simp only [hinput, hplace, if_true] at h
          cases h
          rfl
      | false =>
          simp only [hinput, hplace, Bool.false_eq_true, if_false] at h
          split at h <;> cases h

end Invocation

namespace Executor

variable {executor : Executor} {opcode : Nat} {invocation after : Invocation} {kernel : Kernel}
  {fresh : List (Nat × Tensor)}

/-- What the checks before a run have found: the operation, the first input, the layouts of the
outputs, the type of the first output, the kernel and the outputs that were made for the run. -/
structure Prepared (executor : Executor) (opcode : Nat) (invocation : Invocation)
    (operation : Operation) (input : Tensor) (layouts : List Layout) (output : DType)
    (kernel : Kernel) (fresh : List (Nat × Tensor)) : Prop where
  operation_eq : executor.registry.operation opcode = .ok operation
  inputCount_eq : operation.checkInputCount invocation.inputs.length = .ok ()
  inPlace : invocation.inPlace → operation.inPlace
  layouts_eq : operation.inferLayouts opcode invocation.inputLayouts invocation.params = .ok layouts
  outputCount_eq : layouts.length = operation.outputCount
  input_eq : invocation.input 0 = .ok input
  furtherInputs_eq : checkFurtherInputs operation layouts invocation.inputs.tail = .ok ()
  outputs_eq : checkOutputs invocation 0 layouts = .ok ()
  output_eq : outputType invocation layouts = .ok output
  kernel_eq : executor.kernelFor opcode input.dtype output = .ok kernel
  fresh_eq : freshOutputs executor.workers.platform invocation layouts = .ok fresh

/-- The checks before a run succeed exactly if each of them does. -/
theorem prepare_eq_ok_iff :
    executor.prepare opcode invocation = .ok (kernel, fresh) ↔
      ∃ operation input layouts output,
        Prepared executor opcode invocation operation input layouts output kernel fresh := by
  simp only [prepare, bind_eq_ok, Failure.liftError_eq_ok, Failure.liftPanic_eq_ok,
    Error.raiseUnless_eq_ok]
  constructor
  · rintro ⟨operation, hoperation, ⟨⟩, hcount, ⟨⟩, hplace, layouts, hlayouts, ⟨⟩, hproduced, input,
      hinput, ⟨⟩, hfurther, ⟨⟩, houtputs, output, houtput, found, hkernel, made, hfresh, heq⟩
    cases heq
    exact ⟨operation, input, layouts, output,
      { operation_eq := hoperation
        inputCount_eq := hcount
        inPlace := hplace
        layouts_eq := hlayouts
        outputCount_eq := hproduced
        input_eq := hinput
        furtherInputs_eq := hfurther
        outputs_eq := houtputs
        output_eq := houtput
        kernel_eq := hkernel
        fresh_eq := hfresh }⟩
  · rintro ⟨operation, input, layouts, output, h⟩
    exact ⟨operation, h.operation_eq, (), h.inputCount_eq, (), h.inPlace, layouts, h.layouts_eq, (),
      h.outputCount_eq, input, h.input_eq, (), h.furtherInputs_eq, (), h.outputs_eq, output,
      h.output_eq, kernel, h.kernel_eq, fresh, h.fresh_eq, rfl⟩

/-- A kernel that is run without checks fails for want of a kernel, or does what the kernel does. -/
theorem runKernel_cases (executor : Executor) (opcode : Nat) (input output : DType)
    (invocation : Invocation) :
    (∃ error, executor.runKernel opcode input output invocation = .error error invocation) ∨
      ∃ kernel, executor.kernelFor opcode input output = .ok kernel ∧
        executor.runKernel opcode input output invocation =
          kernel executor.workers opcode invocation := by
  unfold runKernel
  cases executor.kernelFor opcode input output with
  | error error => exact .inl ⟨error, rfl⟩
  | ok kernel => exact .inr ⟨kernel, rfl, rfl⟩

/-- A run succeeds exactly if its checks succeed and the kernel they have chosen does. -/
theorem run_eq_ok_iff :
    executor.run opcode invocation = .ok () after ↔
      ∃ kernel fresh, executor.prepare opcode invocation = .ok (kernel, fresh) ∧
        kernel executor.workers opcode (bindAll invocation fresh) = .ok () after := by
  rw [run]
  cases executor.prepare opcode invocation with
  | error failure => simp
  | ok prepared =>
      obtain ⟨kernel, fresh⟩ := prepared
      simp

/-- Without a bound output, the type of the first output is the inferred one. -/
theorem outputType_of_free (hplace : invocation.inPlace = false)
    (hfree : invocation.boundOutput? 0 = none) (inferred : Layout) (further : List Layout) :
    outputType invocation (inferred :: further) = .ok inferred.dtype := by
  simp only [outputType, hplace, hfree, Bool.false_eq_true, if_false, firstType]

/-- With a bound output, the type of the first output is its type, whatever was inferred. -/
theorem outputType_of_bound (hplace : invocation.inPlace = false) {bound : Tensor}
    (hbound : invocation.boundOutput? 0 = some bound) (layouts : List Layout) :
    outputType invocation layouts = .ok bound.dtype := by
  simp only [outputType, hplace, hbound, Bool.false_eq_true, if_false]

/-- A kernel is found exactly if the operation allows the types and the registry has one for
them. -/
theorem kernelFor_eq_ok_iff {input output : DType} :
    executor.kernelFor opcode input output = .ok kernel ↔
      ∃ operation, executor.registry.operation opcode = .ok operation ∧
        operation.allows input output ∧
        executor.registry.kernel? opcode input output = some kernel := by
  simp only [kernelFor, bind_eq_ok, Error.raiseUnless_eq_ok]
  constructor
  · rintro ⟨operation, hoperation, ⟨⟩, hallows, hkernel⟩
    split at hkernel
    · cases hkernel
      exact ⟨operation, hoperation, hallows, by assumption⟩
    · cases hkernel
  · rintro ⟨operation, hoperation, hallows, hkernel⟩
    exact ⟨operation, hoperation, (), hallows, by rw [hkernel]⟩

/-- Of the machine, only the limit for one buffer has an influence on the outputs that are made. -/
theorem allocate_eq_allocate {platform other : Platform}
    (h : platform.bufferLimit = other.bufferLimit) (invocation : Invocation) (slot : Nat)
    (layouts : List Layout) :
    allocate platform invocation slot layouts = allocate other invocation slot layouts := by
  induction layouts generalizing slot with
  | nil => rfl
  | cons layout rest ih => simp only [allocate, Tensor.zeros_eq_zeros h, ih]

/-- Binding arrays changes nothing but the outputs, and depends on nothing else. -/
theorem exists_bindAll (outputs : List (Option Tensor)) (fresh : List (Nat × Tensor)) :
    ∃ bound, ∀ inputs params inPlace,
      bindAll ⟨inputs, outputs, params, inPlace⟩ fresh = ⟨inputs, bound, params, inPlace⟩ := by
  induction fresh generalizing outputs with
  | nil => exact ⟨outputs, fun _ _ _ ↦ rfl⟩
  | cons output rest ih =>
      exact ih ((outputs ++ List.replicate (output.1 + 1 - outputs.length) none).set output.1
        (some output.2))

/-- For one output that is not bound yet, one array is made. -/
theorem freshOutputs_singleton {platform : Platform} {layout : Layout}
    (hplace : invocation.inPlace = false) (hbound : invocation.boundOutput? 0 = none)
    (h : freshOutputs platform invocation [layout] = .ok fresh) :
    ∃ tensor, Tensor.zeros platform layout = .ok tensor ∧ fresh = [(0, tensor)] := by
  rw [freshOutputs, hplace, if_neg (by simp), allocate, hbound] at h
  obtain ⟨tensor, htensor, hrest⟩ := bind_eq_ok.mp h
  obtain ⟨others, hothers, heq⟩ := bind_eq_ok.mp hrest
  cases hothers
  cases heq
  exact ⟨tensor, htensor, rfl⟩

/-- What the checks find does not depend on the workers, apart from the limit for one buffer. -/
theorem Prepared.of_bufferLimit_eq {registry : Registry} {workers others : Workers}
    {operation : Operation} {input : Tensor} {layouts : List Layout} {output : DType}
    (h : Prepared ⟨registry, workers⟩ opcode invocation operation input layouts output kernel
      fresh)
    (hlimit : others.platform.bufferLimit = workers.platform.bufferLimit) :
    Prepared ⟨registry, others⟩ opcode invocation operation input layouts output kernel fresh :=
  { operation_eq := h.operation_eq
    inputCount_eq := h.inputCount_eq
    inPlace := h.inPlace
    layouts_eq := h.layouts_eq
    outputCount_eq := h.outputCount_eq
    input_eq := h.input_eq
    furtherInputs_eq := h.furtherInputs_eq
    outputs_eq := h.outputs_eq
    output_eq := h.output_eq
    kernel_eq := h.kernel_eq
    fresh_eq := by
      have hfresh := h.fresh_eq
      simp only [freshOutputs, allocate_eq_allocate hlimit] at hfresh ⊢
      exact hfresh }

end Executor

end ArrayEngine
