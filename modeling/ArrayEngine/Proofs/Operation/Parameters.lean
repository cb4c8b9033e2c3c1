import ArrayEngine.Proofs.Operation.Builtin

/-!
# What the parameters decide

The parameters of an invocation are read in two places. The checks infer from them the layouts of
the outputs, and read nothing else of them (`Executor.prepare_withParams`). The kernel of a
reduction splits its input along the axes, and looks neither at the list of the axes after that nor
at the other parameters (`Kernel.reduceWith_withParams`). So other parameters that lead to the same
layout and the same split lead to the same run (`Executor.run_reduction_withParams`).
-/

namespace ArrayEngine

open Layout Reduction

namespace Update

variable {ε σ τ : Type}

/-- The result of a change, with what a function makes of the state in place of the state. -/
def leaving (f : σ → τ) : EStateM.Result ε σ Unit → EStateM.Result ε τ Unit
  | .ok _ left => .ok () (f left)
  | .error error left => .error error (f left)

/-- The same relation holds among the changes that may also panic. -/
theorem raising_eq_leaving {update : Update σ} {other : Update τ} {f : σ → τ} {state : σ}
    {left : τ} (h : other left = leaving f (update state)) :
    other.raising left = leaving f (update.raising state) := by
  unfold raising
  rw [h]
  cases update state <;> rfl

end Update

namespace Invocation

/-- The invocation with other parameters. -/
def withParams (invocation : Invocation) (params : Params) : Invocation :=
  { invocation with params }

variable (invocation : Invocation) (params : Params) (slot : Nat) (tensor : Tensor)

@[simp] theorem params_withParams : (invocation.withParams params).params = params := rfl

@[simp] theorem input_withParams :
    (invocation.withParams params).input slot = invocation.input slot := rfl

@[simp] theorem output?_withParams :
    (invocation.withParams params).output? slot = invocation.output? slot := rfl

@[simp] theorem slotPair_withParams :
    (invocation.withParams params).slotPair slot = invocation.slotPair slot := rfl

@[simp] theorem bindOutput_withParams :
    (invocation.withParams params).bindOutput slot tensor =
      (invocation.bindOutput slot tensor).withParams params := rfl

theorem replaceOutput_withParams :
    (invocation.withParams params).replaceOutput slot tensor =
      (invocation.replaceOutput slot tensor).withParams params := by
  unfold replaceOutput withParams
  split <;> rfl

/-- A change of an output does not read the parameters. -/
theorem updateOutput_withParams (update : Update Tensor) :
    updateOutput slot update (invocation.withParams params) =
      Update.leaving (·.withParams params) (updateOutput slot update invocation) := by
  unfold updateOutput
  rw [output?_withParams]
  cases invocation.output? slot with
  | none => rfl
  | some tensor =>
      simp only [replaceOutput_withParams]
      cases update tensor <;> rfl

/-- With other parameters, a reduction would split the first input in the same way. -/
def SplitsAlike : Prop :=
  ∀ source, invocation.input 0 = .ok source →
    source.layout.splitAlong (resolveAxes params.axes source.layout.rank) =
      source.layout.splitAlong (resolveAxes invocation.params.axes source.layout.rank)

end Invocation

/-! ## The kernels -/

namespace Kernel

variable {workers : Workers} {opcode : Nat} {invocation : Invocation} {params : Params}

/-- A transfer does not read the parameters. -/
theorem transfer_withParams (fill : Workers → Tensor → Update Tensor) :
    transfer fill workers opcode (invocation.withParams params) =
      Update.leaving (·.withParams params) (transfer fill workers opcode invocation) := by
  unfold transfer
  rw [Invocation.slotPair_withParams]
  cases invocation.slotPair 0 with
  | error error => rfl
  | ok pair =>
      cases pair with
      | aliased tensor => rfl
      | separate source output => exact invocation.updateOutput_withParams params 0 _

/-- A reduction reads nothing of the parameters but the split of its input along the axes. -/
theorem reduceWith_withParams {input output : DType} {β : Type}
    (strategy : Strategy (Scalar input) β (Scalar output)) (h : invocation.SplitsAlike params) :
    reduceWith strategy workers opcode (invocation.withParams params) =
      Update.leaving (·.withParams params) (reduceWith strategy workers opcode invocation) := by
  unfold reduceWith
  rw [Invocation.input_withParams]
  cases hsource : invocation.input 0 with
  | error error => rfl
  | ok source =>
      simp only [Invocation.params_withParams, h source hsource]
      cases source.layout.splitAlong (resolveAxes invocation.params.axes source.layout.rank) with
      | error error => rfl
      | ok split =>
          cases split with
          | elements => exact transfer_withParams _
          | whole | slices =>
              cases source.storage.cells? input with
              | error error => rfl
              | ok cells => exact invocation.updateOutput_withParams params 0 _

/-- The same holds with an array bound for the result. -/
theorem reduceWith_bindOutput_withParams {input output : DType} {β : Type}
    (strategy : Strategy (Scalar input) β (Scalar output)) (h : invocation.SplitsAlike params)
    (tensor : Tensor) :
    reduceWith strategy workers opcode ((invocation.withParams params).bindOutput 0 tensor) =
      Update.leaving (·.withParams params)
        (reduceWith strategy workers opcode (invocation.bindOutput 0 tensor)) := by
  have hbound : (invocation.bindOutput 0 tensor).SplitsAlike params := h
  exact reduceWith_withParams strategy hbound

end Kernel

/-! ## The checks before a run -/

namespace Executor

variable {executor : Executor} {opcode : Nat} {invocation : Invocation} {params : Params}

theorem checkOutputs_withParams (slot : Nat) (layouts : List Layout) :
    checkOutputs (invocation.withParams params) slot layouts =
      checkOutputs invocation slot layouts := by
  induction layouts generalizing slot with
  | nil => rfl
  | cons layout rest ih =>
      rw [checkOutputs, checkOutputs, ih]
      rfl

theorem allocate_withParams (platform : Platform) (slot : Nat) (layouts : List Layout) :
    allocate platform (invocation.withParams params) slot layouts =
      allocate platform invocation slot layouts := by
  induction layouts generalizing slot with
  | nil => rfl
  | cons layout rest ih =>
      rw [allocate, allocate, ih]
      rfl

/-- The checks read nothing of the parameters but the layouts that are inferred from them. -/
theorem prepare_withParams
    (h : ∀ operation, executor.registry.operation opcode = .ok operation →
      operation.inferLayouts opcode invocation.inputLayouts params =
        operation.inferLayouts opcode invocation.inputLayouts invocation.params) :
    executor.prepare opcode (invocation.withParams params) =
      executor.prepare opcode invocation := by
  unfold prepare
  cases hoperation : executor.registry.operation opcode with
  | error error => rfl
  | ok operation =>
      have hlayouts := h operation hoperation
      have hfresh (layouts : List Layout) :
          freshOutputs executor.workers.platform (invocation.withParams params) layouts =
            freshOutputs executor.workers.platform invocation layouts := by
        rw [freshOutputs, freshOutputs, allocate_withParams]
        rfl
      have htype (layouts : List Layout) :
          outputType (invocation.withParams params) layouts = outputType invocation layouts := rfl
      have hinputs : (invocation.withParams params).inputs = invocation.inputs := rfl
      simp only [Invocation.params_withParams, Invocation.input_withParams, Invocation.inputLayouts,
        checkOutputs_withParams, hfresh, htype, hinputs, bind, Except.bind,
        Failure.liftError_ok] at hlayouts ⊢
      rw [hlayouts]
      rfl

theorem bindAll_withParams (fresh : List (Nat × Tensor)) :
    bindAll (invocation.withParams params) fresh =
      (bindAll invocation fresh).withParams params := by
  obtain ⟨bound, hbound⟩ := exists_bindAll invocation.outputs fresh
  exact (hbound _ _ _).trans (congrArg (·.withParams params) (hbound _ _ _).symm)

/-- If the same layouts are inferred, and if the kernel that is found does the same with both
parameters, then so does the run. -/
theorem run_withParams
    (hlayouts : ∀ operation, executor.registry.operation opcode = .ok operation →
      operation.inferLayouts opcode invocation.inputLayouts params =
        operation.inferLayouts opcode invocation.inputLayouts invocation.params)
    (hkernel : ∀ kernel fresh, executor.prepare opcode invocation = .ok (kernel, fresh) →
      kernel executor.workers opcode ((bindAll invocation fresh).withParams params) =
        Update.leaving (·.withParams params)
          (kernel executor.workers opcode (bindAll invocation fresh))) :
    executor.run opcode (invocation.withParams params) =
      Update.leaving (·.withParams params) (executor.run opcode invocation) := by
  rw [run, run, prepare_withParams hlayouts]
  cases hprepare : executor.prepare opcode invocation with
  | error error => rfl
  | ok prepared =>
      obtain ⟨kernel, fresh⟩ := prepared
      simp only [bindAll_withParams]
      exact Update.raising_eq_leaving (hkernel kernel fresh hprepare)

/-- A run of a reduction depends on nothing of the parameters but which axes are marked, the layout
that they give to the output, and how they split the input. -/
theorem run_reduction_withParams {platform : Platform} {workers : Workers} {reduction : Reduction}
    {source : Tensor} (hsource : invocation.input 0 = .ok source)
    (hmask : axisMask (resolveAxes params.axes source.layout.rank) source.layout.rank =
      axisMask (resolveAxes invocation.params.axes source.layout.rank) source.layout.rank)
    (hlayout : reduction.outputLayout source.layout params =
      reduction.outputLayout source.layout invocation.params)
    (hsplit : source.layout.splitAlong (resolveAxes params.axes source.layout.rank) =
      source.layout.splitAlong (resolveAxes invocation.params.axes source.layout.rank)) :
    (Executor.mk (.builtin platform) workers).run reduction.opcode (invocation.withParams params) =
      Update.leaving (·.withParams params)
        ((Executor.mk (.builtin platform) workers).run reduction.opcode invocation) := by
  refine run_withParams (fun operation hoperation ↦ ?_) fun kernel fresh hprepare ↦ ?_
  · obtain rfl : reduction.toOperation = operation :=
      Except.ok.inj ((Registry.operation_builtin platform reduction).symm.trans hoperation)
    obtain ⟨others, hothers⟩ := Invocation.exists_inputLayouts hsource
    show inferLayouts reduction.opcode _ _ = inferLayouts reduction.opcode _ _
    rw [hothers, inferLayouts_cons, inferLayouts_cons, hmask, hlayout]
  · obtain ⟨_, _, _, _, hprepared⟩ := prepare_eq_ok_iff.mp hprepare
    obtain ⟨-, hkernel⟩ := hprepared.of_reduction
    obtain ⟨β, strategy, heq⟩ := exists_reduceWith_of_kernel? workers hkernel
    obtain ⟨bound, hbound⟩ := exists_bindAll invocation.outputs fresh
    have hbind : bindAll invocation fresh = { invocation with outputs := bound } := hbound _ _ _
    rw [hbind, heq]
    refine Kernel.reduceWith_withParams strategy fun found hfound ↦ ?_
    obtain rfl : source = found := Except.ok.inj (hsource.symm.trans hfound)
    exact hsplit

/-! ## Reductions that are not in place -/

section

variable {platform : Platform} {workers : Workers} {reduction : Reduction} {tensor : Tensor}
  {outputs : List (Option Tensor)}

/-- What the checks of a reduction come to for an array that is not changed in place. -/
theorem prepare_reduction (reduction : Reduction) (tensor : Tensor)
    (outputs : List (Option Tensor)) (params : Params) :
    (Executor.mk (.builtin platform) workers).prepare reduction.opcode
        ⟨[tensor], outputs, params, false⟩ = (do
      let _ ← axisMask (resolveAxes params.axes tensor.layout.rank) tensor.layout.rank
      let inferred := reduction.outputLayout tensor.layout params
      checkOutput ⟨[tensor], outputs, params, false⟩ 0 inferred
      let output ← outputType ⟨[tensor], outputs, params, false⟩ [inferred]
      let kernel ← (Executor.mk (.builtin platform) workers).kernelFor reduction.opcode tensor.dtype
        output
      let fresh ← freshOutputs workers.platform ⟨[tensor], outputs, params, false⟩ [inferred]
      pure (kernel, fresh)) := by
  have hlayouts : reduction.toOperation.inferLayouts reduction.opcode [tensor.layout] params = (do
      let _ ← axisMask (resolveAxes params.axes tensor.layout.rank) tensor.layout.rank
      pure [reduction.outputLayout tensor.layout params]) :=
    reduction.inferLayouts_cons tensor.layout [] params
  unfold prepare
  rw [Registry.operation_builtin]
  show (liftM (reduction.toOperation.inferLayouts reduction.opcode [tensor.layout] params) :
    Except Failure _) >>= _ = _
  rw [hlayouts]
  cases axisMask (resolveAxes params.axes tensor.layout.rank) tensor.layout.rank with
  | error error => rfl
  | ok mask =>
      -- There is one output, and nothing to check behind it.
      show (liftM (checkOutput _ 0 _ >>= fun _ ↦ pure ()) : Except Failure _) >>= _ =
        (liftM (checkOutput _ 0 _) : Except Failure _) >>= _
      cases checkOutput _ _ _ <;> rfl

/-- If the axes cannot be marked, the run fails for this reason. -/
theorem run_of_axisMask_error {error : Error}
    (h : axisMask (resolveAxes params.axes tensor.layout.rank) tensor.layout.rank = .error error) :
    (Executor.mk (.builtin platform) workers).run reduction.opcode
        ⟨[tensor], outputs, params, false⟩ =
      .error (.raised error) ⟨[tensor], outputs, params, false⟩ := by
  rw [run, prepare_reduction, h]
  rfl

end

end Executor

end ArrayEngine
