import ArrayEngine.Proofs.Operation.IntegerReduction
import ArrayEngine.Proofs.Tensor.Write

/-!
# Independence of the layout

What a built-in operation makes of an array depends on the elements of the array and on the order in
which it numbers them, but not on the strides, the length of the buffer, or what lies in the gaps
(`outcome_eq_of_sameElements`). For reductions of integers to their own type along some axes, the
order does not matter either.
-/

namespace ArrayEngine

open Layout Reduction

/-- What a change of an invocation shows: the error, or the outputs that it leaves. -/
def Update.outcome {ε : Type} (update : EStateM ε Invocation Unit) (invocation : Invocation) :
    Except ε (List (Option Tensor)) :=
  match update invocation with
  | .ok _ left => .ok left.outputs
  | .error error _ => .error error

/-- Changes with one outcome also have one if they are among those that may panic. -/
theorem Update.outcome_raising {update other : Update Invocation}
    {invocation invocation' : Invocation}
    (h : outcome update invocation = outcome other invocation') :
    outcome update.raising invocation = outcome other.raising invocation' := by
  have hlifted (update : Update Invocation) (invocation : Invocation) :
      outcome update.raising invocation = (outcome update invocation).mapError .raised := by
    unfold outcome raising
    cases update invocation <;> rfl
  rw [hlifted, hlifted, h]

variable {tensor other : Tensor} {outputs : List (Option Tensor)} {params : Params}

/-- A change of an output does not depend on the inputs. -/
theorem Invocation.outcome_updateOutput (slot : Nat) (update : Update Tensor)
    (inputs others : List Tensor) (outputs : List (Option Tensor)) (params : Params) :
    Update.outcome (updateOutput slot update) ⟨inputs, outputs, params, false⟩ =
      Update.outcome (updateOutput slot update) ⟨others, outputs, params, false⟩ := by
  have houtput (inputs : List Tensor) :
      Invocation.output? ⟨inputs, outputs, params, false⟩ slot = (outputs[slot]?).join := rfl
  simp only [Update.outcome, updateOutput, houtput]
  cases (outputs[slot]?).join with
  | none => rfl
  | some bound =>
      simp only
      cases update bound with
      | ok _ left => rfl
      | error error left => rfl

/-! ## The elements in their order -/

namespace Tensor.SameElements

variable (h : tensor.SameElements other) (htensor : tensor.Valid) (hother : other.Valid)
  (horder : tensor.layout.order = other.layout.order)

include h htensor hother horder

/-- In the same order both arrays have the same list of elements, and fail alike if it is asked for
in another type. -/
theorem toList?_eq (dtype : DType) : tensor.toList? dtype = other.toList? dtype := by
  obtain ⟨held, cells, others, hcells, hothers, hle, hle', hagree⟩ := h.exists_agree htensor hother
  have hgather := hagree.gather_offsets_eq htensor.addressable hle hother.addressable hle' horder
  rw [toList?_eq_map_gather htensor.addressable, toList?_eq_map_gather hother.addressable, hcells,
    hothers]
  by_cases hdtype : held = dtype
  · subst hdtype
    rw [Storage.cells?_self, Storage.cells?_self]
    exact congrArg Except.ok hgather
  · have hrefused (cells : Array (Scalar held)) :
        (Storage.mk held cells).cells? dtype = .error (.typeMismatch dtype held) := dif_neg hdtype
    rw [hrefused, hrefused]
    rfl

theorem copyFrom_eq (platform : Platform) : copyFrom platform tensor = copyFrom platform other := by
  obtain ⟨values, hvalues, -⟩ := hother.exists_toList? rfl
  by_cases hcomputes : platform.computes other.dtype
  · have hcopied : tensor.toList? other.dtype = .ok values :=
      (h.toList?_eq htensor hother horder other.dtype).trans hvalues
    rw [copyFrom_eq_write h.dtype_eq hcomputes hcopied, copyFrom_eq_write rfl hcomputes hvalues]
  · funext output
    rw [copyFrom_refused h.dtype_eq hcomputes, copyFrom_refused rfl hcomputes]

/-- Truth values in the same order have the same bytes. -/
theorem gather_toBytes_eq (hbool : tensor.dtype = .bool) :
    gather tensor.storage.toBytes.toArray tensor.layout.offsets =
      gather other.storage.toBytes.toArray other.layout.offsets := by
  obtain ⟨held, cells, others, hcells, hothers, hle, hle', hagree⟩ := h.exists_agree htensor hother
  have hgather := hagree.gather_offsets_eq htensor.addressable hle hother.addressable hle' horder
  obtain rfl : held = .bool := by
    rw [← hbool, dtype, ← htensor.dtype_eq, hcells]
  rw [hcells, hothers, Storage.toBytes_bool, Storage.toBytes_bool, gather_map, gather_map, hgather]

end Tensor.SameElements

/-! ## The built-in kernels -/

namespace Kernel

variable {workers : Workers} {opcode : Nat}

/-- Inputs that fill each output in the same way have the same outcome. -/
theorem outcome_transfer {fill : Workers → Tensor → Update Tensor}
    (hfill : fill workers tensor = fill workers other) :
    Update.outcome (transfer fill workers opcode) ⟨[tensor], outputs, params, false⟩ =
      Update.outcome (transfer fill workers opcode) ⟨[other], outputs, params, false⟩ := by
  have hbound (tensor : Tensor) :
      Invocation.boundOutput? ⟨[tensor], outputs, params, false⟩ 0 = (outputs[0]?).join := rfl
  cases houtput : (outputs[0]?).join with
  | none =>
      have hpair (tensor : Tensor) : Invocation.slotPair ⟨[tensor], outputs, params, false⟩ 0 =
          .error (Invocation.missingOutput 0) := by
        simp [Invocation.slotPair, hbound, houtput]
      simp only [Update.outcome, transfer, hpair]
  | some bound =>
      have hpair (tensor : Tensor) : Invocation.slotPair ⟨[tensor], outputs, params, false⟩ 0 =
          .ok (.separate tensor bound) := by
        simp [Invocation.slotPair, hbound, houtput]
      simp only [Update.outcome, transfer, hpair, hfill]
      exact Invocation.outcome_updateOutput 0 _ [tensor] [other] outputs params

section

variable (h : tensor.SameElements other) (htensor : tensor.Valid) (hother : other.Valid)

include h htensor hother

theorem outcome_convert (horder : tensor.layout.order = other.layout.order) (input output : DType) :
    Update.outcome (convert input output workers opcode) ⟨[tensor], outputs, params, false⟩ =
      Update.outcome (convert input output workers opcode) ⟨[other], outputs, params, false⟩ := by
  refine outcome_transfer ?_
  by_cases hsame : input = output
  · subst hsame
    rw [convertInto_self, convertInto_self]
    exact h.copyFrom_eq htensor hother horder workers.platform
  · funext bound
    rw [convertInto_of_ne hsame, convertInto_of_ne hsame, h.toList?_eq htensor hother horder]

variable (hrank : tensor.layout.rank ≤ maxRank) (hpos : 0 < tensor.size)

include hrank hpos

/-- Reductions have the same outcome for both arrays if the engine has the same results, and if the
orders agree in case there is nothing to reduce. -/
theorem outcome_reduceWith {input output : DType} {β : Type}
    {strategy : Strategy (Scalar input) β (Scalar output)} (hinput : tensor.dtype = input)
    (hconvert : resolveAxes params.axes tensor.layout.rank = [] →
      tensor.layout.order = other.layout.order)
    (hresults : ∀ {cells others : Array (Scalar input)} {axes split split'},
      tensor.layout.Agree other.layout cells others →
      tensor.layout.requiredCells ≤ cells.size → other.layout.requiredCells ≤ others.size →
      axes ≠ [] → tensor.layout.splitAlong axes = .ok split →
      other.layout.splitAlong axes = .ok split' →
      reduceAlong workers strategy cells tensor.layout none split =
        reduceAlong workers strategy others other.layout none split') :
    Update.outcome (reduceWith strategy workers opcode) ⟨[tensor], outputs, params, false⟩ =
      Update.outcome (reduceWith strategy workers opcode) ⟨[other], outputs, params, false⟩ := by
  obtain ⟨held, cells, others, hcells, hothers, hle, hle', hagree⟩ := h.exists_agree htensor hother
  obtain rfl : held = input := by
    rw [← hinput, Tensor.dtype, ← htensor.dtype_eq, hcells]
  have hranks : tensor.layout.rank = other.layout.rank := congrArg List.length hagree.extents_eq
  -- Both invocations have the array as their first input, and resolve the axes alike.
  have hsource (tensor : Tensor) :
      Invocation.input ⟨[tensor], outputs, params, false⟩ 0 = .ok tensor := rfl
  obtain ⟨axes, haxes⟩ : ∃ axes, resolveAxes params.axes tensor.layout.rank = axes := ⟨_, rfl⟩
  have haxes' : resolveAxes params.axes other.layout.rank = axes := hranks ▸ haxes
  by_cases hnil : axes = []
  · simp only [Update.outcome, reduceWith_eq_convert (hsource tensor) haxes hnil,
      reduceWith_eq_convert (hsource other) haxes' hnil]
    exact outcome_convert h htensor hother (hconvert (haxes.trans hnil)) _ _
  · rcases h.splitAlong_cases htensor hother hrank hpos axes with
      ⟨error, hsplit, hsplit'⟩ | ⟨split, split', hsplit, hsplit'⟩
    · simp only [Update.outcome, reduceWith_of_splitAlong_error (hsource tensor) haxes hsplit,
        reduceWith_of_splitAlong_error (hsource other) haxes' hsplit']
    · have hheld : tensor.storage.cells? held = .ok cells := by rw [hcells, Storage.cells?_self]
      have hheld' : other.storage.cells? held = .ok others := by rw [hothers, Storage.cells?_self]
      simp only [Update.outcome,
        reduceWith_eq_updateOutput (hsource tensor) haxes hnil hsplit hheld,
        reduceWith_eq_updateOutput (hsource other) haxes' hnil hsplit' hheld',
        hresults hagree hle hle' hnil hsplit hsplit']
      exact Invocation.outcome_updateOutput 0 _ [tensor] [other] outputs params

/-- Every built-in kernel has the same outcome for both arrays if their orders agree. -/
theorem IsBuiltin.outcome_eq {input output : DType} {kernel : Kernel}
    (hkernel : IsBuiltin input output kernel) (hinput : tensor.dtype = input)
    (horder : tensor.layout.order = other.layout.order) :
    Update.outcome (kernel workers opcode) ⟨[tensor], outputs, params, false⟩ =
      Update.outcome (kernel workers opcode) ⟨[other], outputs, params, false⟩ := by
  have hreduction (hreduces : Reduces input output kernel) :
      Update.outcome (kernel workers opcode) ⟨[tensor], outputs, params, false⟩ =
        Update.outcome (kernel workers opcode) ⟨[other], outputs, params, false⟩ := by
    rcases hreduces workers opcode with ⟨error, hfails⟩ | ⟨_, strategy, heq⟩
    · rw [hfails]
      rfl
    · rw [heq]
      refine outcome_reduceWith h htensor hother hrank hpos hinput (fun _ ↦ horder) ?_
      intro cells others axes split split' hagree hle hle' haxes hsplit hsplit'
      exact hagree.reduceAlong_eq htensor.addressable hle hother.addressable hle' haxes hsplit
        hsplit' horder workers strategy none
  cases hkernel with
  | reduce => exact hreduction (reduces_reduce input output)
  | reduceInts => exact hreduction (reduces_reduceInts input)
  | convert => exact outcome_convert h htensor hother horder input output
  | convertTruth =>
      refine outcome_transfer ?_
      funext bound
      simp only [h.gather_toBytes_eq htensor hother horder hinput]
  | assign =>
      refine outcome_transfer ?_
      funext bound
      rw [h.toList?_eq htensor hother horder]

end

end Kernel

/-! ## The checks before a run -/

/-- Reductions infer the same layouts for arrays of one element type and the same extents. -/
theorem Reduction.inferLayouts_eq {opcode : Nat} {layout other : Layout}
    (hextents : layout.extents = other.extents) (hdtype : layout.dtype = other.dtype)
    (params : Params) :
    Reduction.inferLayouts opcode [layout] params =
      Reduction.inferLayouts opcode [other] params := by
  simp only [Reduction.inferLayouts, Layout.rank, hextents, hdtype]

/-- The operations of the built-in registry infer the same layouts for arrays of one element type
and the same extents if the orders agree. -/
theorem Registry.inferLayouts_builtin {platform : Platform} {opcode opcode' : Nat}
    {operation : Operation} (h : (Registry.builtin platform).operation opcode = .ok operation)
    {layout other : Layout} (hextents : layout.extents = other.extents)
    (hdtype : layout.dtype = other.dtype) (horder : layout.order = other.order) (params : Params) :
    operation.inferLayouts opcode' [layout] params =
      operation.inferLayouts opcode' [other] params := by
  rcases exists_of_operation_builtin h with ⟨reduction, -, rfl⟩ | ⟨transform, -, rfl⟩
  · exact Reduction.inferLayouts_eq hextents hdtype params
  · show transform.inferLayouts opcode' [layout] params =
      transform.inferLayouts opcode' [other] params
    simp only [Transform.inferLayouts, hextents, hdtype, horder]

namespace Executor

theorem checkOutputs_eq (inputs others : List Tensor) (outputs : List (Option Tensor))
    (params : Params) (slot : Nat) (layouts : List Layout) :
    checkOutputs ⟨inputs, outputs, params, false⟩ slot layouts =
      checkOutputs ⟨others, outputs, params, false⟩ slot layouts := by
  induction layouts generalizing slot with
  | nil => rfl
  | cons layout rest ih =>
      rw [checkOutputs, checkOutputs, ih]
      rfl

theorem allocate_eq (platform : Platform) (inputs others : List Tensor)
    (outputs : List (Option Tensor)) (params : Params) (slot : Nat) (layouts : List Layout) :
    allocate platform ⟨inputs, outputs, params, false⟩ slot layouts =
      allocate platform ⟨others, outputs, params, false⟩ slot layouts := by
  induction layouts generalizing slot with
  | nil => rfl
  | cons layout rest ih =>
      rw [allocate, allocate, ih]
      rfl

variable {executor : Executor} {opcode : Nat}

/-- The checks read no more of the input than its element type and the layouts that are inferred for
it. -/
theorem prepare_eq (hdtype : tensor.dtype = other.dtype)
    (hlayouts : ∀ operation, executor.registry.operation opcode = .ok operation →
      operation.inferLayouts opcode [tensor.layout] params =
        operation.inferLayouts opcode [other.layout] params) :
    executor.prepare opcode ⟨[tensor], outputs, params, false⟩ =
      executor.prepare opcode ⟨[other], outputs, params, false⟩ := by
  unfold prepare
  cases hoperation : executor.registry.operation opcode with
  | error error => rfl
  | ok operation =>
      have hinput (tensor : Tensor) :
          Invocation.input ⟨[tensor], outputs, params, false⟩ 0 = .ok tensor := rfl
      have hinferred := hlayouts operation hoperation
      have houtputs := checkOutputs_eq [tensor] [other] outputs params 0
      have hfresh (layouts : List Layout) :
          freshOutputs executor.workers.platform ⟨[tensor], outputs, params, false⟩ layouts =
            freshOutputs executor.workers.platform ⟨[other], outputs, params, false⟩ layouts :=
        allocate_eq executor.workers.platform [tensor] [other] outputs params 0 layouts
      have htype (layouts : List Layout) :
          outputType ⟨[tensor], outputs, params, false⟩ layouts =
            outputType ⟨[other], outputs, params, false⟩ layouts := rfl
      simp only [hinput, houtputs, hfresh, htype, Invocation.inputLayouts, List.map_cons,
        List.map_nil, hinferred, List.length_cons, List.length_nil, List.tail_cons, bind,
        Except.bind, hdtype, Failure.liftError_ok]

/-- Two runs have the same outcome if their checks find the same, and if each kernel that they can
find has the same outcome. -/
theorem outcome_run_eq
    (hprepare : executor.prepare opcode ⟨[tensor], outputs, params, false⟩ =
      executor.prepare opcode ⟨[other], outputs, params, false⟩)
    (hkernel : ∀ kernel output bound,
      executor.registry.kernel? opcode tensor.dtype output = some kernel →
      Update.outcome (kernel executor.workers opcode) ⟨[tensor], bound, params, false⟩ =
        Update.outcome (kernel executor.workers opcode) ⟨[other], bound, params, false⟩) :
    Update.outcome (executor.run opcode) ⟨[tensor], outputs, params, false⟩ =
      Update.outcome (executor.run opcode) ⟨[other], outputs, params, false⟩ := by
  cases hprepared : executor.prepare opcode ⟨[tensor], outputs, params, false⟩ with
  | error failure => simp only [Update.outcome, run, ← hprepare, hprepared]
  | ok prepared =>
      obtain ⟨kernel, fresh⟩ := prepared
      obtain ⟨operation, input, layouts, output, hfound⟩ := prepare_eq_ok_iff.mp hprepared
      obtain rfl : tensor = input := Except.ok.inj hfound.input_eq
      obtain ⟨_, _, _, hregistered⟩ := kernelFor_eq_ok_iff.mp hfound.kernel_eq
      obtain ⟨bound, hbound⟩ := exists_bindAll outputs fresh
      have houtcome := Update.outcome_raising (hkernel kernel _ bound hregistered)
      simp only [Update.outcome, run, ← hprepare, hprepared, hbound] at houtcome ⊢
      exact houtcome

/-- For arrays with elements and not too many axes, the outcome of a built-in operation depends on
nothing but the elements and their order. -/
theorem outcome_run_eq_of_order_eq (h : tensor.SameElements other) (htensor : tensor.Valid)
    (hother : other.Valid) (horder : tensor.layout.order = other.layout.order)
    (hrank : tensor.layout.rank ≤ maxRank) (hpos : 0 < tensor.size) (platform : Platform)
    (workers : Workers) (opcode : Nat) (outputs : List (Option Tensor)) (params : Params) :
    Update.outcome ((Executor.mk (.builtin platform) workers).run opcode)
        ⟨[tensor], outputs, params, false⟩ =
      Update.outcome ((Executor.mk (.builtin platform) workers).run opcode)
        ⟨[other], outputs, params, false⟩ := by
  refine outcome_run_eq (prepare_eq h.dtype_eq fun operation hoperation ↦
    Registry.inferLayouts_builtin hoperation h.extents_eq h.dtype_eq horder params) ?_
  intro kernel output bound hkernel
  exact (Registry.isBuiltin_of_kernel? hkernel).outcome_eq h htensor hother hrank hpos rfl horder

/-- For arrays with elements and not too many axes, the outcome of a built-in operation depends on
nothing but the elements and their order: with other strides, another buffer or other gaps, the same
operation with the same parameters fails with the same error or leaves the same outputs. If integers
are reduced to their own type along some axes, the outcome does not depend on the order either. -/
theorem outcome_eq_of_sameElements (h : tensor.SameElements other) (htensor : tensor.Valid)
    (hother : other.Valid) (hrank : tensor.layout.rank ≤ maxRank) (hpos : 0 < tensor.size)
    (platform : Platform) (workers : Workers) (opcode : Nat) (outputs : List (Option Tensor))
    (params : Params) :
    (tensor.layout.order = other.layout.order →
      Update.outcome ((Executor.mk (.builtin platform) workers).run opcode)
          ⟨[tensor], outputs, params, false⟩ =
        Update.outcome ((Executor.mk (.builtin platform) workers).run opcode)
          ⟨[other], outputs, params, false⟩) ∧
      ∀ reduction : Reduction, reduction.opcode = opcode →
        reduction.outputRule = .sameAsInput → tensor.dtype.isInt →
        resolveAxes params.axes tensor.layout.rank ≠ [] →
        Update.outcome ((Executor.mk (.builtin platform) workers).run opcode)
            ⟨[tensor], outputs, params, false⟩ =
          Update.outcome ((Executor.mk (.builtin platform) workers).run opcode)
            ⟨[other], outputs, params, false⟩ := by
  constructor
  · intro horder
    exact outcome_run_eq_of_order_eq h htensor hother horder hrank hpos platform workers opcode
      outputs params
  · intro reduction hopcode hsame hint haxes
    subst hopcode
    refine outcome_run_eq (prepare_eq h.dtype_eq fun operation hoperation ↦ ?_) ?_
    · rw [Registry.operation_builtin] at hoperation
      cases hoperation
      exact Reduction.inferLayouts_eq h.extents_eq h.dtype_eq params
    · intro kernel output bound hkernel
      rw [Registry.kernel?_builtin] at hkernel
      obtain rfl := Reduction.eq_of_kernel? hsame hkernel
      rw [Reduction.kernel_eq_of_isInt hint hsame hkernel]
      -- The integer accumulator does not depend on the order in which it takes in the elements.
      refine Kernel.outcome_reduceWith h htensor hother hrank hpos rfl
        (fun hnil ↦ absurd hnil haxes) ?_
      intro cells others axes split split' hagree hle hle' hne hsplit hsplit'
      exact hagree.reduceAlong_eq_of_isInt hint hsame htensor.addressable hle hother.addressable
        hle' hne hsplit hsplit' workers none

/-- A column-major array of two rows with a gap between its columns. -/
def gappedNumbers : Tensor :=
  .gapped .columnMajor ⟨1⟩ ⟨3⟩ ⟨2⟩ ⟨4⟩

/-- A row-major array of the same two rows without gaps. -/
def packedNumbers : Tensor :=
  ⟨packed [2, 2] .rowMajor .i8, ⟨.i8, #[⟨1⟩, ⟨2⟩, ⟨3⟩, ⟨4⟩]⟩⟩

/-- The columns of a column-major array with a gap have the sums of the columns of a row-major array
without one. -/
theorem outcome_eq_of_sameElements_gapped :
    Tensor.SameElements gappedNumbers packedNumbers ∧
      Update.outcome (Executor.small.run sum.opcode)
          ⟨[gappedNumbers], [], ⟨some [0], false, none⟩, false⟩ =
        .ok [some ⟨packed [2] .rowMajor .i8, ⟨.i8, #[⟨4⟩, ⟨6⟩]⟩⟩] := by
  have hpacked : packedNumbers.Valid :=
    ⟨addressable_packed (by decide) .rowMajor .i8, rfl, by decide⟩
  have hpatterns : ∀ coords ∈ gappedNumbers.layout.coordinates,
      gappedNumbers.patternAt? coords = packedNumbers.patternAt? coords := by
    decide
  have hsame : Tensor.SameElements gappedNumbers packedNumbers :=
    ⟨rfl, rfl, fun hbox ↦ hpatterns _ (mem_coordinates.mpr hbox)⟩
  refine ⟨hsame, ?_⟩
  refine ((outcome_eq_of_sameElements hsame (Tensor.valid_gapped _ _ _ _ _) hpacked (by decide)
    (by decide) _ _ _ _ _).2 sum rfl rfl rfl (by decide)).trans ?_
  rfl

end Executor

end ArrayEngine
