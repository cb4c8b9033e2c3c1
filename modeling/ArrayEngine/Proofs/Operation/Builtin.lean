import ArrayEngine.Operation.Builtin
import ArrayEngine.Proofs.Operation.Executor
import ArrayEngine.Proofs.Reduction.OutputExtents
import ArrayEngine.Proofs.Reduction.Slices

/-!
# Runs of the built-in operations

Every kernel in the built-in registry is one of five kinds (`Kernel.IsBuiltin`). A kernel that is no
reduction fills its output without looking at what it holds (`Tensor.Fills`). For a reduction, the
checks find what `Prepared.of_reduction` says, and under its opcode its kernel works with its
strategy (`HasStrategy.kernel_eq`): it leaves in an output that was just made for it the results of
the engine, without gaps and in row-major order (`reduceWith_bindOutput`).
-/

namespace ArrayEngine

open Layout

/-! ## The registry -/

theorem Reduction.ofOpcode?_opcode (reduction : Reduction) :
    ofOpcode? reduction.opcode = some reduction := by
  cases reduction <;> rfl

/-- Each reduction is found under its opcode. -/
theorem Registry.operation_builtin (platform : Platform) (reduction : Reduction) :
    (Registry.builtin platform).operation reduction.opcode = .ok reduction.toOperation := by
  cases reduction <;> rfl

theorem Registry.kernel?_builtin (platform : Platform) (reduction : Reduction)
    (input output : DType) :
    (Registry.builtin platform).kernel? reduction.opcode input output =
      reduction.kernel? platform input output := by
  rw [builtin]
  simp only [reduction.ofOpcode?_opcode]

theorem Transform.ofOpcode?_opcode (transform : Transform) :
    ofOpcode? transform.opcode = some transform := by
  cases transform <;> rfl

/-- Each transform is found under its opcode. -/
theorem Registry.operation_builtin_transform (platform : Platform) (transform : Transform) :
    (Registry.builtin platform).operation transform.opcode = .ok transform.toOperation := by
  cases transform <;> rfl

theorem Registry.kernel?_builtin_transform (platform : Platform) (transform : Transform)
    (input output : DType) :
    (Registry.builtin platform).kernel? transform.opcode input output =
      transform.kernel? platform input output := by
  -- No transform has the opcode of a reduction.
  have hother : Reduction.ofOpcode? transform.opcode = none := by cases transform <;> rfl
  rw [builtin]
  simp only [hother, transform.ofOpcode?_opcode]

/-- The built-in operations are all that the registry holds. -/
theorem Registry.operations_builtin (platform : Platform) :
    (Registry.builtin platform).operations = builtinOperations := rfl

/-- Every operation of the registry is a reduction or a transform under its opcode. -/
theorem Registry.exists_of_operation_builtin {platform : Platform} {opcode : Nat}
    {operation : Operation} (h : (Registry.builtin platform).operation opcode = .ok operation) :
    (∃ reduction : Reduction, opcode = reduction.opcode ∧ operation = reduction.toOperation) ∨
      ∃ transform : Transform, opcode = transform.opcode ∧ operation = transform.toOperation := by
  unfold Registry.operation at h
  split at h
  · rename_i hfound
    cases h
    have hopcode := List.find?_some hfound
    have hmem := List.mem_of_find?_eq_some hfound
    rw [operations_builtin] at hmem
    rcases List.mem_append.mp hmem with hreduction | htransform
    · obtain ⟨reduction, _, rfl⟩ := List.mem_map.mp hreduction
      exact .inl ⟨reduction, (beq_iff_eq.mp hopcode).symm, rfl⟩
    · obtain ⟨transform, _, rfl⟩ := List.mem_map.mp htransform
      exact .inr ⟨transform, (beq_iff_eq.mp hopcode).symm, rfl⟩
  · cases h

namespace Kernel

/-- The kernels of the built-in operations for a pair of types. -/
inductive IsBuiltin : DType → DType → Kernel → Prop where
  | reduce (input output : DType) : IsBuiltin input output (Kernel.reduce input output)
  | reduceInts (dtype : DType) : IsBuiltin dtype dtype (Kernel.reduceInts dtype)
  | convert (input output : DType) : IsBuiltin input output (Kernel.convert input output)
  | convertTruth (output : DType) : IsBuiltin .bool output (Kernel.convertTruth output)
  | assign (dtype : DType) : IsBuiltin dtype dtype (Kernel.assign dtype)

/-- For each opcode, the kernel is a reduction by some strategy, or it always fails. -/
def Reduces (input output : DType) (kernel : Kernel) : Prop :=
  ∀ workers opcode, (∃ error, kernel workers opcode = Update.fail error) ∨
    ∃ (β : Type) (strategy : Strategy (Scalar input) β (Scalar output)),
      kernel workers opcode = reduceWith strategy workers opcode

theorem reduces_reduce (input output : DType) : Reduces input output (reduce input output) := by
  intro workers opcode
  unfold reduce
  cases Reduction.ofOpcode opcode with
  | error error => exact .inl ⟨error, rfl⟩
  | ok reduction => exact .inr ⟨_, _, rfl⟩

theorem reduces_reduceInts (dtype : DType) : Reduces dtype dtype (reduceInts dtype) := by
  intro workers opcode
  unfold reduceInts
  cases Reduction.ofOpcode opcode with
  | error error => exact .inl ⟨error, rfl⟩
  | ok reduction =>
      simp only
      cases reduction.intStrategy? dtype with
      | none => exact .inl ⟨_, rfl⟩
      | some strategy => exact .inr ⟨_, strategy, rfl⟩

end Kernel

namespace Reduction

theorem ofOpcode_opcode (reduction : Reduction) : ofOpcode reduction.opcode = .ok reduction := by
  rw [ofOpcode, reduction.ofOpcode?_opcode]

/-- The strategy by which a reduction computes a result of one type from elements of another: its
integer accumulator, if it has one and the elements are integers, and double precision otherwise. -/
inductive HasStrategy (reduction : Reduction) (platform : Platform) :
    {input output : DType} → {β : Type} → Strategy (Scalar input) β (Scalar output) → Prop where
  | integer {dtype : DType} (hsame : reduction.outputRule = .sameAsInput) (hint : dtype.isInt) :
      HasStrategy reduction platform (reduction.intStrategy dtype)
  | float {input output : DType} (hother : reduction.outputRule = .sameAsInput → ¬input.isInt) :
      HasStrategy reduction platform (reduction.strategy platform input output)

variable {reduction : Reduction} {platform : Platform} {workers : Workers} {input output : DType}
  {kernel : Kernel}

theorem exists_hasStrategy (platform : Platform)
    (h : reduction.outputRule = .sameAsInput → input = output) :
    ∃ (β : Type) (strategy : Strategy (Scalar input) β (Scalar output)),
      reduction.HasStrategy platform strategy := by
  by_cases hint : reduction.outputRule = .sameAsInput ∧ input.isInt
  · obtain rfl := h hint.1
    exact ⟨_, _, .integer hint.1 hint.2⟩
  · exact ⟨_, _, .float fun hsame hinput ↦ hint ⟨hsame, hinput⟩⟩

/-- The kernels of a reduction are for types that can be computed with. -/
theorem computes_of_kernel? (h : reduction.kernel? platform input output = some kernel) :
    platform.computes input := by
  unfold kernel? at h
  split at h
  · rename_i hcomputes
    exact (Bool.and_eq_true_iff.mp hcomputes).1
  · cases h

/-- The kernels of a reduction that keeps the type of the elements are for one type. -/
theorem eq_of_kernel? (hsame : reduction.outputRule = .sameAsInput)
    (h : reduction.kernel? platform input output = some kernel) : input = output := by
  unfold kernel? at h
  split at h
  · simp only [hsame] at h
    by_contra hne
    rw [if_neg hne] at h
    cases h
  · cases h

/-- The kernel of a reduction has an integer accumulator if the reduction keeps the type of the
elements and these are integers, and one in double precision otherwise. -/
theorem eq_of_kernel?_eq_some (h : reduction.kernel? platform input output = some kernel) :
    (input = output ∧ reduction.outputRule = .sameAsInput ∧ input.isInt ∧
        kernel = Kernel.reduceInts input) ∨
      (reduction.outputRule = .sameAsInput → ¬input.isInt) ∧
        kernel = Kernel.reduce input output := by
  unfold kernel? at h
  split at h
  · cases hrule : reduction.outputRule with
    | sameAsInput =>
        simp only [hrule] at h
        split at h
        · rename_i hsame
          split at h
          · rename_i hint
            exact .inl ⟨hsame, rfl, hint, (Option.some.inj h).symm⟩
          · rename_i hint
            exact .inr ⟨fun _ ↦ hint, (Option.some.inj h).symm⟩
        · cases h
    | floats | ints =>
        simp only [hrule] at h
        split at h
        · exact .inr ⟨nofun, (Option.some.inj h).symm⟩
        · cases h
  · cases h

theorem isBuiltin_of_kernel? (h : reduction.kernel? platform input output = some kernel) :
    Kernel.IsBuiltin input output kernel := by
  rcases eq_of_kernel?_eq_some h with ⟨rfl, -, -, rfl⟩ | ⟨-, rfl⟩
  · exact .reduceInts input
  · exact .reduce input output

/-- Under the opcode of a reduction, its kernel works with its strategy. -/
theorem HasStrategy.kernel_eq {β : Type} {strategy : Strategy (Scalar input) β (Scalar output)}
    (h : reduction.HasStrategy workers.platform strategy)
    (hkernel : reduction.kernel? platform input output = some kernel) :
    kernel workers reduction.opcode = Kernel.reduceWith strategy workers reduction.opcode := by
  funext invocation
  rcases eq_of_kernel?_eq_some hkernel with ⟨rfl, hsame, hint, rfl⟩ | ⟨hother, rfl⟩
  · cases h with
    | integer =>
        simp only [Kernel.reduceInts, reduction.ofOpcode_opcode, intStrategy?, hsame, if_true]
    | float hother => exact absurd hint (hother hsame)
  · cases h with
    | integer hsame hint => exact absurd hint (hother hsame)
    | float => simp only [Kernel.reduce, reduction.ofOpcode_opcode]

/-- Under its opcode, the kernel of a reduction works with some strategy. -/
theorem exists_reduceWith_of_kernel? (workers : Workers)
    (h : reduction.kernel? platform input output = some kernel) :
    ∃ (β : Type) (strategy : Strategy (Scalar input) β (Scalar output)),
      kernel workers reduction.opcode = Kernel.reduceWith strategy workers reduction.opcode := by
  obtain ⟨β, strategy, hstrategy⟩ := exists_hasStrategy workers.platform
    fun hsame ↦ eq_of_kernel? hsame h
  exact ⟨β, strategy, hstrategy.kernel_eq h⟩

end Reduction

theorem Transform.isBuiltin_of_kernel? {transform : Transform} {platform : Platform}
    {input output : DType} {kernel : Kernel}
    (h : transform.kernel? platform input output = some kernel) :
    Kernel.IsBuiltin input output kernel := by
  unfold kernel? at h
  split at h
  · split at h
    · cases h
    · split at h
      · rename_i hbool
        obtain rfl : input = .bool := by
          cases input <;> first | rfl | cases hbool
        cases h
        exact .convertTruth output
      · split at h
        · cases h
          exact .convert input output
        · cases h
  · split at h
    · rename_i hsame
      obtain ⟨rfl, _⟩ : input = output ∧ platform.computes input := by simpa using hsame
      cases h
      exact .assign input
    · cases h

/-- The registry has a kernel for a pair of types only if it is one of the built-in kernels for
them. -/
theorem Registry.isBuiltin_of_kernel? {platform : Platform} {opcode : Nat} {input output : DType}
    {kernel : Kernel} (h : (Registry.builtin platform).kernel? opcode input output = some kernel) :
    Kernel.IsBuiltin input output kernel := by
  unfold builtin at h
  simp only at h
  split at h
  · exact Reduction.isBuiltin_of_kernel? h
  · split at h
    · exact Transform.isBuiltin_of_kernel? h
    · cases h

/-- The layout of the result of a reduction. -/
def Reduction.outputLayout (reduction : Reduction) (input : Layout) (params : Params) : Layout :=
  .packed (outputExtents input.extents (resolveAxes params.axes input.rank) params.keepDims)
    .rowMajor (params.dtype.getD (reduction.defaultOutput input.dtype))

/-- The rule for the layout of the result marks the axes, and looks at the first input alone. -/
theorem Reduction.inferLayouts_cons (reduction : Reduction) (input : Layout) (others : List Layout)
    (params : Params) :
    inferLayouts reduction.opcode (input :: others) params = (do
      let _ ← axisMask (resolveAxes params.axes input.rank) input.rank
      pure [reduction.outputLayout input params]) := by
  rw [inferLayouts, reduction.ofOpcode_opcode]
  rfl

theorem Reduction.inferLayouts_eq_ok_iff {reduction : Reduction} {input : Layout}
    {others layouts : List Layout} {params : Params} :
    inferLayouts reduction.opcode (input :: others) params = .ok layouts ↔
      (∃ mask, axisMask (resolveAxes params.axes input.rank) input.rank = .ok mask) ∧
        layouts = [reduction.outputLayout input params] := by
  rw [inferLayouts_cons]
  refine bind_eq_ok.trans ⟨?_, ?_⟩
  · rintro ⟨mask, hmask, heq⟩
    cases heq
    exact ⟨⟨mask, hmask⟩, rfl⟩
  · rintro ⟨⟨mask, hmask⟩, rfl⟩
    exact ⟨mask, hmask, rfl⟩

/-- The layout of the result of a transform. -/
def Transform.outputLayout (transform : Transform) (input : Layout) : Layout :=
  .packed input.extents input.order (transform.target?.getD input.dtype)

/-- The layout of the first input comes first. -/
theorem Invocation.exists_inputLayouts {invocation : Invocation} {input : Tensor}
    (h : invocation.input 0 = .ok input) :
    ∃ others, invocation.inputLayouts = input.layout :: others := by
  rw [Invocation.input] at h
  rw [inputLayouts]
  cases hinputs : invocation.inputs with
  | nil =>
      rw [hinputs] at h
      cases h
  | cons first others =>
      rw [hinputs] at h
      cases h
      exact ⟨_, rfl⟩

namespace Executor

variable {platform : Platform} {workers : Workers} {reduction : Reduction} {transform : Transform}
  {opcode : Nat} {invocation : Invocation} {operation : Operation} {input : Tensor}
  {layouts : List Layout} {output : DType} {kernel : Kernel} {fresh : List (Nat × Tensor)}

/-- What the checks find for a reduction. -/
theorem Prepared.of_reduction
    (h : Prepared ⟨.builtin platform, workers⟩ reduction.opcode invocation operation input layouts
      output kernel fresh) :
    layouts = [reduction.outputLayout input.layout invocation.params] ∧
      reduction.kernel? platform input.dtype output = some kernel := by
  have hoperation := h.operation_eq
  rw [Registry.operation_builtin] at hoperation
  cases hoperation
  obtain ⟨others, hothers⟩ := Invocation.exists_inputLayouts h.input_eq
  have hlayouts : Reduction.inferLayouts reduction.opcode (input.layout :: others)
      invocation.params = .ok layouts := hothers ▸ h.layouts_eq
  obtain ⟨_, heq⟩ := Reduction.inferLayouts_eq_ok_iff.mp hlayouts
  obtain ⟨_, _, _, hkernel⟩ := kernelFor_eq_ok_iff.mp h.kernel_eq
  rw [Registry.kernel?_builtin] at hkernel
  exact ⟨heq, hkernel⟩

/-- What the checks find for a transform. -/
theorem Prepared.of_transform
    (h : Prepared ⟨.builtin platform, workers⟩ transform.opcode invocation operation input layouts
      output kernel fresh) :
    layouts = [transform.outputLayout input.layout] ∧
      transform.kernel? platform input.dtype output = some kernel := by
  have hoperation := h.operation_eq
  rw [Registry.operation_builtin_transform] at hoperation
  cases hoperation
  obtain ⟨others, hothers⟩ := Invocation.exists_inputLayouts h.input_eq
  have hlayouts : transform.inferLayouts transform.opcode (input.layout :: others)
      invocation.params = .ok layouts := hothers ▸ h.layouts_eq
  cases hlayouts
  obtain ⟨_, _, _, hkernel⟩ := kernelFor_eq_ok_iff.mp h.kernel_eq
  rw [Registry.kernel?_builtin_transform] at hkernel
  exact ⟨rfl, hkernel⟩

/-- Every built-in operation has one output, with a layout without gaps, and the checks find one of
the built-in kernels for it. -/
theorem Prepared.of_builtin
    (h : Prepared ⟨.builtin platform, workers⟩ opcode invocation operation input layouts output
      kernel fresh) :
    (∃ extents order dtype, layouts = [.packed extents order dtype]) ∧
      Kernel.IsBuiltin input.dtype output kernel := by
  obtain ⟨_, _, _, hkernel⟩ := kernelFor_eq_ok_iff.mp h.kernel_eq
  refine ⟨?_, Registry.isBuiltin_of_kernel? hkernel⟩
  rcases Registry.exists_of_operation_builtin h.operation_eq with
    ⟨reduction, rfl, -⟩ | ⟨transform, rfl, -⟩
  · obtain ⟨hlayouts, _⟩ := h.of_reduction
    exact ⟨_, _, _, hlayouts⟩
  · obtain ⟨hlayouts, _⟩ := h.of_transform
    exact ⟨_, _, _, hlayouts⟩

end Executor

/-! ## The kernel of a conversion -/

namespace Kernel

/-- Between equal types, the elements are copied. -/
theorem convertInto_self (platform : Platform) (dtype : DType) (source : Tensor) :
    convertInto platform dtype dtype source = Tensor.copyFrom platform source :=
  if_pos rfl

/-- Between different types, the elements are read, converted and written. -/
theorem convertInto_of_ne {input output : DType} (h : input ≠ output) (platform : Platform)
    (source tensor : Tensor) :
    convertInto platform input output source tensor =
      match source.toList? input with
      | .error error => .error error tensor
      | .ok elements => Tensor.write (elements.map (Scalar.convert platform output)) tensor :=
  congrFun (if_neg h) tensor

end Kernel

/-! ## Changes that fill an array -/

namespace Tensor

variable {fill : Update Tensor} {tensor left : Tensor}

/-- The change does not look at what the array holds: it writes the same elements to every array, or
refuses every array with the same error. -/
def Fills (fill : Update Tensor) : Prop :=
  (∃ (dtype : DType) (values : List (Scalar dtype)), fill = write values) ∨
    ∃ error, ∀ tensor, fill tensor = .error error tensor

theorem Fills.exists_eq_write (h : Fills fill) (hfill : fill tensor = .ok () left) :
    ∃ (dtype : DType) (values : List (Scalar dtype)), fill = write values := by
  rcases h with hwrite | ⟨error, hrefuses⟩
  · exact hwrite
  · rw [hrefuses] at hfill
    cases hfill

/-- A change that reads elements and writes what becomes of them fills the array. -/
theorem fills_of_toList? {input output : DType} (source : Tensor)
    (change : List (Scalar input) → List (Scalar output))
    (h : ∀ tensor, fill tensor =
      match source.toList? input with
      | .error error => .error error tensor
      | .ok elements => write (change elements) tensor) : Fills fill := by
  cases helements : source.toList? input with
  | error error => exact .inr ⟨error, fun tensor ↦ by simp only [h, helements]⟩
  | ok elements =>
      refine .inl ⟨output, change elements, funext fun tensor ↦ ?_⟩
      simp only [h, helements]

theorem fills_copyFrom (platform : Platform) (source : Tensor) :
    Fills (copyFrom platform source) := by
  cases hrequire : platform.require source.dtype "copy" with
  | error error => exact .inr ⟨error, fun tensor ↦ by simp only [copyFrom, hrequire]⟩
  | ok _ =>
      refine fills_of_toList? source (id : List (Scalar source.dtype) → _) fun tensor ↦ ?_
      simp only [copyFrom, hrequire]
      cases source.toList? source.dtype <;> rfl

theorem fills_convertInto (platform : Platform) (input output : DType) (source : Tensor) :
    Fills (Kernel.convertInto platform input output source) := by
  by_cases hsame : input = output
  · subst hsame
    rw [Kernel.convertInto_self]
    exact fills_copyFrom platform source
  · exact fills_of_toList? source (List.map (Scalar.convert platform output))
      (Kernel.convertInto_of_ne hsame platform source)

end Tensor

/-- A built-in kernel fills its output from its input, or it is a reduction. -/
theorem Kernel.IsBuiltin.eq_transfer_or_reduces {input output : DType} {kernel : Kernel}
    (hkernel : IsBuiltin input output kernel) :
    (∃ fill, (∀ workers source, Tensor.Fills (fill workers source)) ∧
        kernel = Kernel.transfer fill) ∨
      Kernel.Reduces input output kernel := by
  cases hkernel with
  | reduce => exact .inr (reduces_reduce input output)
  | reduceInts => exact .inr (reduces_reduceInts input)
  | convert =>
      exact .inl ⟨_, fun workers ↦ Tensor.fills_convertInto workers.platform input output, rfl⟩
  | convertTruth => exact .inl ⟨_, fun _ _ ↦ .inl ⟨_, _, rfl⟩, rfl⟩
  | assign =>
      exact .inl ⟨_, fun _ source ↦ Tensor.fills_of_toList? source id fun _ ↦ rfl, rfl⟩

/-! ## The kernel of a reduction -/

namespace Kernel

variable {input output : DType} {β : Type} {strategy : Strategy (Scalar input) β (Scalar output)}
  {workers : Workers} {opcode : Nat} {invocation after : Invocation} {source : Tensor}
  {axes : List Nat}

/-- A reduction fails at once, converts the elements, or writes results of the engine. -/
theorem reduceWith_cases (strategy : Strategy (Scalar input) β (Scalar output)) (workers : Workers)
    (opcode : Nat) (invocation : Invocation) :
    (∃ error, reduceWith strategy workers opcode invocation = .error error invocation) ∨
      reduceWith strategy workers opcode invocation =
        convert input output workers opcode invocation ∨
      ∃ results, reduceWith strategy workers opcode invocation =
        Invocation.updateOutput 0 (Tensor.write (results : List (Scalar output))) invocation := by
  unfold reduceWith
  cases invocation.input 0 with
  | error error => exact .inl ⟨error, rfl⟩
  | ok source =>
      simp only
      cases source.layout.splitAlong
          (Reduction.resolveAxes invocation.params.axes source.layout.rank) with
      | error error => exact .inl ⟨error, rfl⟩
      | ok split =>
          cases split with
          | elements => exact .inr (.inl rfl)
          | whole | slices =>
              cases source.storage.cells? input with
              | error error => exact .inl ⟨error, rfl⟩
              | ok cells => exact .inr (.inr ⟨_, rfl⟩)

section

variable (hsource : invocation.input 0 = .ok source)
  (haxes : Reduction.resolveAxes invocation.params.axes source.layout.rank = axes)

include hsource haxes

/-- A reduction succeeds only if the axes split the array. -/
theorem exists_split_of_reduceWith
    (h : reduceWith strategy workers opcode invocation = .ok () after) :
    ∃ split, source.layout.splitAlong axes = .ok split := by
  rw [reduceWith, hsource] at h
  simp only [haxes] at h
  cases hsplit : source.layout.splitAlong axes with
  | error error => simp [hsplit] at h
  | ok split => exact ⟨split, rfl⟩

/-- A reduction fails if the axes do not split the array. -/
theorem reduceWith_of_splitAlong_error {error : Error}
    (hsplit : source.layout.splitAlong axes = .error error) :
    reduceWith strategy workers opcode invocation = .error error invocation := by
  rw [reduceWith, hsource]
  simp only [haxes, hsplit]

/-- A reduction along no axis converts the elements. -/
theorem reduceWith_eq_convert (hnil : axes = []) :
    reduceWith strategy workers opcode invocation =
      convert input output workers opcode invocation := by
  have hsplit : source.layout.splitAlong [] = .ok .elements := rfl
  rw [reduceWith, hsource]
  simp only [haxes, hnil, hsplit]

section

variable (hne : axes ≠ []) {split : AxisSplit} (hsplit : source.layout.splitAlong axes = .ok split)

include hne hsplit

/-- A reduction along some axes reads the elements in its type and writes the results of the
engine. -/
theorem reduceWith_eq_match :
    reduceWith strategy workers opcode invocation =
      match source.storage.cells? input with
      | .error error => .error error invocation
      | .ok cells =>
          Invocation.updateOutput 0
            (Tensor.write (reduceAlong workers strategy cells source.layout none split))
            invocation := by
  rw [reduceWith, hsource]
  simp only [haxes, hsplit]
  rcases splitAlong_eq_ok hsplit with ⟨_, _, ⟨hnil, _⟩ | ⟨_, _, rfl⟩ | ⟨_, slices, _, rfl⟩⟩
  · exact absurd hnil hne
  · rfl
  · rfl

/-- A reduction along some axes writes the results of the engine. -/
theorem reduceWith_eq_updateOutput {cells : Array (Scalar input)}
    (hcells : source.storage.cells? input = .ok cells) :
    reduceWith strategy workers opcode invocation =
      Invocation.updateOutput 0
        (Tensor.write (reduceAlong workers strategy cells source.layout none split))
        invocation := by
  rw [reduceWith_eq_match hsource haxes hne hsplit, hcells]

/-- A reduction along some axes succeeds only if the elements have its type. -/
theorem exists_cells_of_reduceWith
    (h : reduceWith strategy workers opcode invocation = .ok () after) :
    ∃ cells, source.storage.cells? input = .ok cells := by
  rw [reduceWith_eq_match hsource haxes hne hsplit] at h
  cases hcells : source.storage.cells? input with
  | ok cells => exact ⟨cells, rfl⟩
  | error error =>
      rw [hcells] at h
      cases h

end

end

/-- In an output that was just made for it, a reduction along some axes leaves the results of the
engine, in row-major order. -/
theorem reduceWith_bindOutput {platform : Platform} {layout : Layout} {cells : Array (Scalar input)}
    {tensor : Tensor} {split : AxisSplit} (hplace : invocation.inPlace = false)
    (hsource : invocation.input 0 = .ok ⟨layout, ⟨input, cells⟩⟩)
    (haxes : Reduction.resolveAxes invocation.params.axes layout.rank = axes) (hne : axes ≠ [])
    (hlayout : layout.Addressable) (hcells : layout.requiredCells ≤ cells.size)
    (hsplit : layout.splitAlong axes = .ok split)
    (hzeros : Tensor.zeros platform
      (.packed (Reduction.outputExtents layout.extents axes invocation.params.keepDims) .rowMajor
        output) = .ok tensor) :
    reduceWith strategy workers opcode (invocation.bindOutput 0 tensor) =
      .ok () (invocation.bindOutput 0
        (.ofElements (reduceAlong workers strategy cells layout none split)
          (Reduction.outputExtents layout.extents axes invocation.params.keepDims) .rowMajor)) := by
  have hcount := isSome_count?_across hlayout.length_strides hne hsplit
  have hvolume := Reduction.volume_outputExtents invocation.params.keepDims hcount
  have hlength : (reduceAlong workers strategy cells layout none split).length =
      volume (Reduction.outputExtents layout.extents axes invocation.params.keepDims) :=
    (length_reduceAlong hlayout hcells hne hsplit).trans hvolume.2.symm
  -- Binding the output has left the input as it was.
  have hbound : (invocation.bindOutput 0 tensor).input 0 = .ok ⟨layout, ⟨input, cells⟩⟩ := hsource
  rw [reduceWith_eq_updateOutput hbound haxes hne hsplit (Storage.cells?_self input cells)]
  refine Invocation.updateOutput_bindOutput hplace ?_
  rw [Tensor.zeros_eq_ok hzeros]
  refine Tensor.write_packed hvolume.1 ?_ hlength
  exact Array.size_replicate.trans (requiredCells_packed hvolume.1 .rowMajor output)

end Kernel

end ArrayEngine
