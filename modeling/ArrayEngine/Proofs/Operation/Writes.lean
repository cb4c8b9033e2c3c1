import ArrayEngine.Proofs.Operation.Builtin
import ArrayEngine.Proofs.Tensor.Write

/-!
# What the built-in kernels write

A built-in kernel does not look at the array that is bound for its result. Whatever array that is,
the kernel writes the same elements to it, or it refuses with the same error before it writes
anything (`IsBuiltin.writes_or_refuses`). If a run has made its output, the elements that its kernel
writes are those that the output lists (`Executor.exists_made`).
-/

namespace ArrayEngine

open Layout Reduction

/-! ## Elements of another type -/

namespace Scalar

variable {input : DType} (platform : Platform)

/-- An element as a conversion writes it: between equal types, the element itself. -/
def carried (output : DType) (x : Scalar input) : Scalar output :=
  if h : input = output then h ▸ x else x.convert platform output

@[simp] theorem carried_eq_id (dtype : DType) :
    (carried platform dtype : Scalar dtype → _) = id :=
  funext fun _ ↦ dif_pos rfl

theorem carried_of_ne {output : DType} (h : input ≠ output) (x : Scalar input) :
    x.carried platform output = x.convert platform output :=
  dif_neg h

/-- The number one for a truth value that differs from zero, and zero otherwise. -/
def ofTruth (output : DType) (x : Scalar .bool) : Scalar output :=
  if x.pattern ≠ 0 then one output else zero output

end Scalar

/-- Between equal types, the elements that are carried over are those of the array. -/
theorem Tensor.toList?_eq_map_carried {source : Tensor} {input output : DType}
    {elements : List (Scalar input)} (platform : Platform)
    (helements : source.toList? input = .ok elements) (hsame : input = output) :
    source.toList? output = .ok (elements.map (Scalar.carried platform output)) := by
  subst hsame
  rw [Scalar.carried_eq_id, List.map_id]
  exact helements

namespace Invocation

variable {invocation : Invocation} {slot : Nat} {tensor left source : Tensor}

/-- A failed change of an output right after it was bound. -/
theorem updateOutput_bindOutput_of_error (hplace : invocation.inPlace = false)
    {update : Update Tensor} {error : Error} (h : update tensor = .error error left) :
    updateOutput slot update (invocation.bindOutput slot tensor) =
      .error error (invocation.bindOutput slot left) := by
  simp only [updateOutput, output?_bindOutput hplace, h, replaceOutput_bindOutput hplace]

theorem output_bindOutput (hplace : invocation.inPlace = false) :
    (invocation.bindOutput slot tensor).output slot = .ok tensor := by
  rw [output, output?_bindOutput hplace]

/-- A bound output can be read back. -/
theorem bindOutput_injective
    (h : invocation.bindOutput slot tensor = invocation.bindOutput slot left) :
    tensor = left := by
  have hbound := congrArg (Invocation.boundOutput? · slot) h
  simpa only [boundOutput?_bindOutput, Option.some.injEq] using hbound

/-- A slot without an input has no pair. -/
theorem slotPair_of_input_error {error : Error} (h : invocation.input slot = .error error) :
    invocation.slotPair slot = .error error := by
  unfold input at h
  unfold slotPair
  cases hinput : invocation.inputs[slot]? with
  | some found =>
      rw [hinput] at h
      cases h
  | none =>
      rw [hinput] at h
      cases h
      rfl

/-- With an output bound, a slot has its input beside it. -/
theorem slotPair_bindOutput (hplace : invocation.inPlace = false)
    (hsource : invocation.input slot = .ok source) :
    (invocation.bindOutput slot tensor).slotPair slot = .ok (.separate source tensor) := by
  have hinput : (invocation.bindOutput slot tensor).inputs[slot]? = some source := by
    show invocation.inputs[slot]? = some source
    unfold input at hsource
    split at hsource
    · rename_i found hfound
      cases hsource
      exact hfound
    · cases hsource
  simp only [slotPair, hinput, inPlace_bindOutput, hplace, boundOutput?_bindOutput,
    Bool.false_eq_true, if_false]

end Invocation

namespace Kernel

section

variable (kernel : Kernel) (workers : Workers) (opcode : Nat) (invocation : Invocation)

/-- Whatever array is bound as the first output, the kernel writes these elements to it. -/
def Writes {output : DType} (values : List (Scalar output)) : Prop :=
  ∀ tensor, kernel workers opcode (invocation.bindOutput 0 tensor) =
    Invocation.updateOutput 0 (Tensor.write values) (invocation.bindOutput 0 tensor)

/-- Whatever array is bound as the first output, the kernel fails with this error and leaves the
array as it is. -/
def Refuses (error : Error) : Prop :=
  ∀ tensor, kernel workers opcode (invocation.bindOutput 0 tensor) =
    .error error (invocation.bindOutput 0 tensor)

end

variable {kernel other : Kernel} {workers : Workers} {opcode : Nat}
  {invocation after : Invocation} {source tensor left : Tensor} {input output : DType}
  {values : List (Scalar output)}

/-- A kernel that does the same under an opcode writes the same elements. -/
theorem Writes.of_eq (h : other.Writes workers opcode invocation values)
    (heq : kernel workers opcode = other workers opcode) :
    kernel.Writes workers opcode invocation values :=
  fun tensor ↦ (congrFun heq _).trans (h tensor)

/-- A kernel that does the same under an opcode refuses the same arrays. -/
theorem Refuses.of_eq {error : Error} (h : other.Refuses workers opcode invocation error)
    (heq : kernel workers opcode = other workers opcode) :
    kernel.Refuses workers opcode invocation error :=
  fun tensor ↦ (congrFun heq _).trans (h tensor)

section

variable (h : kernel.Writes workers opcode invocation values) (hplace : invocation.inPlace = false)

include h hplace

/-- If the array takes the elements, the kernel succeeds. -/
theorem Writes.eq_ok (hwrite : Tensor.write values tensor = .ok () left) :
    kernel workers opcode (invocation.bindOutput 0 tensor) =
      .ok () (invocation.bindOutput 0 left) := by
  rw [h tensor]
  exact Invocation.updateOutput_bindOutput hplace hwrite

/-- If the kernel succeeds, the array has taken the elements. -/
theorem Writes.exists_write
    (hrun : kernel workers opcode (invocation.bindOutput 0 tensor) = .ok () after) :
    ∃ left, Tensor.write values tensor = .ok () left ∧ after = invocation.bindOutput 0 left := by
  rw [h tensor] at hrun
  cases hwrite : Tensor.write values tensor with
  | ok _ left =>
      rw [Invocation.updateOutput_bindOutput hplace hwrite] at hrun
      cases hrun
      exact ⟨left, rfl, rfl⟩
  | error error left =>
      rw [Invocation.updateOutput_bindOutput_of_error hplace hwrite] at hrun
      cases hrun

end

/-- A kernel that refuses does not succeed. -/
theorem Refuses.ne_ok {error : Error} (h : kernel.Refuses workers opcode invocation error) :
    kernel workers opcode (invocation.bindOutput 0 tensor) ≠ .ok () after := by
  intro hrun
  rw [h tensor] at hrun
  cases hrun

/-! ## Conversions and copies -/

section

variable (hplace : invocation.inPlace = false) (hsource : invocation.input 0 = .ok source)

include hplace hsource

/-- With an output bound, a transfer fills it from the input. -/
theorem transfer_bindOutput (fill : Workers → Tensor → Update Tensor) :
    transfer fill workers opcode (invocation.bindOutput 0 tensor) =
      Invocation.updateOutput 0 (fill workers source) (invocation.bindOutput 0 tensor) := by
  simp only [transfer, Invocation.slotPair_bindOutput hplace hsource]

theorem writes_transfer {fill : Workers → Tensor → Update Tensor}
    (hfill : fill workers source = Tensor.write values) :
    (transfer fill).Writes workers opcode invocation values := by
  intro tensor
  rw [transfer_bindOutput hplace hsource, hfill]

theorem refuses_transfer {fill : Workers → Tensor → Update Tensor} {error : Error}
    (hfill : ∀ tensor, fill workers source tensor = .error error tensor) :
    (transfer fill).Refuses workers opcode invocation error := by
  intro tensor
  rw [transfer_bindOutput hplace hsource]
  exact Invocation.updateOutput_bindOutput_of_error hplace (hfill tensor)

/-- Elements of a type that cannot be computed with are not copied. -/
theorem refuses_convert (hdtype : source.dtype = output)
    (hcomputes : ¬workers.platform.computes output) :
    (convert output output).Refuses workers opcode invocation
      (.unsupportedType output "copy") := by
  refine refuses_transfer hplace hsource fun tensor ↦ ?_
  rw [convertInto_self]
  exact Tensor.copyFrom_refused hdtype hcomputes tensor

/-- A conversion writes the elements of the input, each as it is carried over. -/
theorem writes_map_carried (hdtype : source.dtype = input)
    (hcomputes : input = output → workers.platform.computes output)
    {elements : List (Scalar input)} (helements : source.toList? input = .ok elements) :
    (convert input output).Writes workers opcode invocation
      (elements.map (Scalar.carried workers.platform output)) := by
  refine writes_transfer hplace hsource ?_
  by_cases hsame : input = output
  · subst hsame
    rw [convertInto_self, Scalar.carried_eq_id, List.map_id]
    exact Tensor.copyFrom_eq_write hdtype (hcomputes rfl) helements
  · have hmap : elements.map (Scalar.carried workers.platform output) =
        elements.map (Scalar.convert workers.platform output) :=
      List.map_congr_left fun x _ ↦ Scalar.carried_of_ne workers.platform hsame x
    funext tensor
    simp only [convertInto_of_ne hsame, helements, hmap]

/-- A conversion writes the elements of the input, each as it is carried over, or it refuses. -/
theorem writes_map_carried_or_refuses (hdtype : source.dtype = input)
    {elements : List (Scalar input)} (helements : source.toList? input = .ok elements) :
    (convert input output).Writes workers opcode invocation
        (elements.map (Scalar.carried workers.platform output)) ∨
      ∃ error, (convert input output).Refuses workers opcode invocation error := by
  by_cases hcomputes : input = output → workers.platform.computes output
  · exact .inl (writes_map_carried hplace hsource hdtype hcomputes helements)
  · obtain ⟨rfl, hrefused⟩ := Classical.not_imp.mp hcomputes
    exact .inr ⟨_, refuses_convert hplace hsource hdtype hrefused⟩

/-- A copy writes the elements of the input. -/
theorem writes_elements {elements : List (Scalar input)}
    (helements : source.toList? input = .ok elements) :
    (assign input).Writes workers opcode invocation elements := by
  refine writes_transfer hplace hsource ?_
  funext tensor
  simp only [helements]

/-- A conversion of truth values asks of each element of the input whether it differs from zero. -/
theorem writes_map_ofTruth (output : DType) (hlayout : source.layout.Addressable)
    {elements : List (Scalar .bool)} (helements : source.toList? .bool = .ok elements) :
    (convertTruth output).Writes workers opcode invocation
      (elements.map (Scalar.ofTruth output)) := by
  obtain ⟨cells, hcells, rfl⟩ := (Tensor.toList?_eq_ok_iff hlayout).mp helements
  refine writes_transfer hplace hsource ?_
  -- A truth value takes one byte, so that the bytes lie at the offsets of the elements.
  have hbyte (x : Scalar .bool) : x.pattern >>> 0 % 256 = x.pattern := Nat.mod_eq_of_lt x.bits.isLt
  simp only [hcells, Storage.toBytes_bool, gather_map, hbyte, List.map_map]
  rfl

variable (hvalid : source.Valid) (hdtype : source.dtype = input)

include hvalid hdtype

/-- A conversion writes as many elements as the input has. Between equal types they are those of the
input. -/
theorem writes_convert (hcomputes : input = output → workers.platform.computes output) :
    ∃ values, values.length = source.size ∧
      (input = output → source.toList? output = .ok values) ∧
      (convert input output).Writes workers opcode invocation values := by
  obtain ⟨elements, helements, hlength⟩ := hvalid.exists_toList? hdtype
  exact ⟨elements.map (Scalar.carried workers.platform output), by simpa using hlength,
    Tensor.toList?_eq_map_carried workers.platform helements,
    writes_map_carried hplace hsource hdtype hcomputes helements⟩

/-- A copy writes the elements of the input. -/
theorem writes_assign :
    ∃ values : List (Scalar input), values.length = source.size ∧
      source.toList? input = .ok values ∧
      (assign input).Writes workers opcode invocation values := by
  obtain ⟨elements, helements, hlength⟩ := hvalid.exists_toList? hdtype
  exact ⟨elements, hlength, helements, writes_elements hplace hsource helements⟩

omit hdtype in
theorem writes_convertTruth (hbool : source.dtype = .bool) (output : DType) :
    ∃ values : List (Scalar output), values.length = source.size ∧
      (convertTruth output).Writes workers opcode invocation values := by
  obtain ⟨elements, helements, hlength⟩ := hvalid.exists_toList? hbool
  exact ⟨elements.map (Scalar.ofTruth output), by simpa using hlength,
    writes_map_ofTruth hplace hsource output hvalid.addressable helements⟩

end

/-! ## Reductions -/

section

variable {β : Type} {strategy : Strategy (Scalar input) β (Scalar output)} {axes : List Nat}
  (hsource : invocation.input 0 = .ok source)
  (haxes : resolveAxes invocation.params.axes source.layout.rank = axes)

include hsource haxes

/-- Along no axis, a reduction does with any array what a conversion does. -/
theorem reduceWith_bindOutput_eq_convert (hnil : axes = []) (tensor : Tensor) :
    reduceWith strategy workers opcode (invocation.bindOutput 0 tensor) =
      convert input output workers opcode (invocation.bindOutput 0 tensor) := by
  rw [← invocation.input_bindOutput 0 tensor] at hsource
  exact reduceWith_eq_convert hsource haxes hnil

theorem refuses_reduceWith {error : Error}
    (hsplit : source.layout.splitAlong axes = .error error) :
    (reduceWith strategy).Refuses workers opcode invocation error := by
  intro tensor
  rw [← invocation.input_bindOutput 0 tensor] at hsource
  exact reduceWith_of_splitAlong_error hsource haxes hsplit

/-- Along some axes, a reduction writes the results of the engine. -/
theorem writes_reduceAlong (hne : axes ≠ []) {split : AxisSplit}
    (hsplit : source.layout.splitAlong axes = .ok split) {cells : Array (Scalar input)}
    (hcells : source.storage.cells? input = .ok cells) :
    (reduceWith strategy).Writes workers opcode invocation
      (reduceAlong workers strategy cells source.layout none split) := by
  intro tensor
  rw [← invocation.input_bindOutput 0 tensor] at hsource
  exact reduceWith_eq_updateOutput hsource haxes hne hsplit hcells

/-- Along some axes, a reduction writes one element for each choice of coordinates on the others. -/
theorem writes_reduceWith (hvalid : source.Valid) (hdtype : source.dtype = input)
    (hne : axes ≠ []) {split : AxisSplit} (hsplit : source.layout.splitAlong axes = .ok split) :
    ∃ values : List (Scalar output), values.length = volume (across axes source.extents) ∧
      (reduceWith strategy).Writes workers opcode invocation values := by
  obtain ⟨elements, helements, -⟩ := hvalid.exists_toList? hdtype
  obtain ⟨cells, hstorage, -⟩ := (Tensor.toList?_eq_ok_iff hvalid.addressable).mp helements
  have hcells : source.storage.cells? input = .ok cells := by rw [hstorage, Storage.cells?_self]
  have hle : source.layout.requiredCells ≤ cells.size := by
    have hle := hvalid.requiredCells_le
    rwa [hstorage] at hle
  exact ⟨reduceAlong workers strategy cells source.layout none split,
    length_reduceAlong hvalid.addressable hle hne hsplit,
    writes_reduceAlong hsource haxes hne hsplit hcells⟩

end

/-! ## All kernels -/

section

variable (hplace : invocation.inPlace = false)

include hplace

/-- A transfer that has filled one output would write the same elements to any other. -/
theorem exists_writes_of_transfer {fill : Workers → Tensor → Update Tensor}
    (hfill : ∀ workers source, Tensor.Fills (fill workers source))
    (h : transfer fill workers opcode (invocation.bindOutput 0 tensor) = .ok () after) :
    ∃ (dtype : DType) (values : List (Scalar dtype)),
      (transfer fill).Writes workers opcode invocation values := by
  cases hsource : invocation.input 0 with
  | error error =>
      rw [← invocation.input_bindOutput 0 tensor] at hsource
      simp only [transfer, Invocation.slotPair_of_input_error hsource] at h
      cases h
  | ok source =>
      rw [transfer_bindOutput hplace hsource] at h
      obtain ⟨_, left, -, hleft, -⟩ := Invocation.exists_of_updateOutput h
      obtain ⟨dtype, values, heq⟩ := (hfill workers source).exists_eq_write hleft
      exact ⟨dtype, values, writes_transfer hplace hsource heq⟩

/-- So would a reduction that has succeeded. -/
theorem exists_writes_of_reduceWith {β : Type}
    {strategy : Strategy (Scalar input) β (Scalar output)}
    (h : reduceWith strategy workers opcode (invocation.bindOutput 0 tensor) = .ok () after) :
    ∃ (dtype : DType) (values : List (Scalar dtype)),
      (reduceWith strategy).Writes workers opcode invocation values := by
  cases hsource : invocation.input 0 with
  | error error =>
      rw [reduceWith, invocation.input_bindOutput, hsource] at h
      cases h
  | ok source =>
      have hbound := (invocation.input_bindOutput 0 tensor 0).trans hsource
      obtain ⟨split, hsplit⟩ := exists_split_of_reduceWith hbound rfl h
      by_cases hnil : resolveAxes invocation.params.axes source.layout.rank = []
      · simp only [Writes, reduceWith_bindOutput_eq_convert hsource rfl hnil] at h ⊢
        exact exists_writes_of_transfer hplace
          (fun workers ↦ Tensor.fills_convertInto workers.platform input output) h
      · obtain ⟨cells, hcells⟩ := exists_cells_of_reduceWith hbound rfl hnil hsplit h
        exact ⟨_, _, writes_reduceAlong hsource rfl hnil hsplit hcells⟩

/-- A built-in kernel that succeeds with one array bound for its result would write the same
elements to any other. -/
theorem IsBuiltin.exists_writes (hkernel : IsBuiltin input output kernel)
    (h : kernel workers opcode (invocation.bindOutput 0 tensor) = .ok () after) :
    ∃ (dtype : DType) (values : List (Scalar dtype)),
      kernel.Writes workers opcode invocation values := by
  rcases hkernel.eq_transfer_or_reduces with ⟨fill, hfill, rfl⟩ | hreduces
  · exact exists_writes_of_transfer hplace hfill h
  · rcases hreduces workers opcode with ⟨error, hfails⟩ | ⟨_, strategy, heq⟩
    · rw [hfails] at h
      cases h
    · rw [heq] at h
      obtain ⟨dtype, values, hwrites⟩ := exists_writes_of_reduceWith hplace h
      exact ⟨dtype, values, hwrites.of_eq heq⟩

end

/-- A conversion writes as many elements as its input has, or refuses. Between equal types they are
the elements of the input. -/
theorem convert_writes_or_refuses (hplace : invocation.inPlace = false)
    (hsource : invocation.input 0 = .ok source) (hvalid : source.Valid)
    (hdtype : source.dtype = input) :
    (∃ values : List (Scalar output), values.length = source.size ∧
        (input = output → source.toList? output = .ok values) ∧
        (convert input output).Writes workers opcode invocation values) ∨
      ∃ error, (convert input output).Refuses workers opcode invocation error := by
  obtain ⟨elements, helements, hlength⟩ := hvalid.exists_toList? hdtype
  rcases writes_map_carried_or_refuses hplace hsource hdtype helements with hwrites | hrefuses
  · exact .inl ⟨elements.map (Scalar.carried workers.platform output), by simpa using hlength,
      Tensor.toList?_eq_map_carried workers.platform helements, hwrites⟩
  · exact .inr hrefuses

section

variable (hplace : invocation.inPlace = false) (hsource : invocation.input 0 = .ok source)
  (hvalid : source.Valid) (hdtype : source.dtype = input)

include hplace hsource hvalid hdtype

/-- A reduction writes elements that can be counted, or it refuses. -/
theorem reduceWith_writes_or_refuses {β : Type}
    (strategy : Strategy (Scalar input) β (Scalar output)) :
    (∃ values : List (Scalar output), values.length < Size.limit ∧
        (reduceWith strategy).Writes workers opcode invocation values) ∨
      ∃ error, (reduceWith strategy).Refuses workers opcode invocation error := by
  obtain ⟨axes, haxes⟩ : ∃ axes, resolveAxes invocation.params.axes source.layout.rank = axes :=
    ⟨_, rfl⟩
  by_cases hnil : axes = []
  · simp only [Writes, Refuses, reduceWith_bindOutput_eq_convert hsource haxes hnil]
    rcases convert_writes_or_refuses hplace hsource hvalid hdtype with
      ⟨values, hlength, -, hwrites⟩ | hrefuses
    · exact .inl ⟨values, hlength ▸ hvalid.addressable.size_lt, hwrites⟩
    · exact .inr hrefuses
  · cases hsplit : source.layout.splitAlong axes with
    | error error => exact .inr ⟨error, refuses_reduceWith hsource haxes hsplit⟩
    | ok split =>
        obtain ⟨values, hlength, hwrites⟩ :=
          writes_reduceWith hsource haxes hvalid hdtype hnil hsplit
        have hcount := isSome_count?_across hvalid.addressable.length_strides hnil hsplit
        obtain ⟨hvolume, hacross⟩ := volume_outputExtents false hcount
        refine .inl ⟨values, ?_, hwrites⟩
        rw [hlength]
        exact hacross ▸ hvolume

/-- A built-in kernel writes the same elements to any array that is bound for its result, and they
can be counted, or it refuses any array with the same error. -/
theorem IsBuiltin.writes_or_refuses (hkernel : IsBuiltin input output kernel) :
    (∃ values : List (Scalar output), values.length < Size.limit ∧
        kernel.Writes workers opcode invocation values) ∨
      ∃ error, kernel.Refuses workers opcode invocation error := by
  have hlimit {values : List (Scalar output)} (hlength : values.length = source.size) :
      values.length < Size.limit := by
    rw [hlength]
    exact hvalid.addressable.size_lt
  have hreduction (hreduces : Reduces input output kernel) :
      (∃ values : List (Scalar output), values.length < Size.limit ∧
          kernel.Writes workers opcode invocation values) ∨
        ∃ error, kernel.Refuses workers opcode invocation error := by
    rcases hreduces workers opcode with ⟨error, hfails⟩ | ⟨_, strategy, heq⟩
    · exact .inr ⟨error, fun tensor ↦ congrFun hfails _⟩
    · rcases reduceWith_writes_or_refuses hplace hsource hvalid hdtype strategy with
        ⟨values, hlength, hwrites⟩ | ⟨error, hrefuses⟩
      · exact .inl ⟨values, hlength, hwrites.of_eq heq⟩
      · exact .inr ⟨error, hrefuses.of_eq heq⟩
  cases hkernel with
  | reduce => exact hreduction (reduces_reduce input output)
  | reduceInts => exact hreduction (reduces_reduceInts input)
  | convert =>
      rcases convert_writes_or_refuses hplace hsource hvalid hdtype with
        ⟨values, hlength, -, hwrites⟩ | hrefuses
      · exact .inl ⟨values, hlimit hlength, hwrites⟩
      · exact .inr hrefuses
  | convertTruth =>
      obtain ⟨values, hlength, hwrites⟩ :=
        writes_convertTruth hplace hsource hvalid hdtype output
      exact .inl ⟨values, hlimit hlength, hwrites⟩
  | assign =>
      obtain ⟨values, hlength, -, hwrites⟩ := writes_assign hplace hsource hvalid hdtype
      exact .inl ⟨values, hlimit hlength, hwrites⟩

end

end Kernel

/-! ## Runs that make their output -/

namespace Executor

variable {platform : Platform} {workers : Workers} {opcode : Nat} {invocation after : Invocation}
  {input output : Tensor}

/-- A run has made its output: the checks have found a kernel for the layout of the output, the
kernel has succeeded with a blank array, and whatever it writes are the elements of the output. -/
structure Made (platform : Platform) (workers : Workers) (opcode : Nat) (invocation : Invocation)
    (input output : Tensor) (kernel : Kernel) : Prop where
  prepared : ∃ operation fresh, Prepared ⟨.builtin platform, workers⟩ opcode invocation operation
    input [output.layout] output.dtype kernel fresh
  succeeds : ∃ blank, kernel workers opcode (invocation.bindOutput 0 blank) =
    .ok () (invocation.bindOutput 0 output)
  valid : output.Valid
  writes : ∃ values : List (Scalar output.dtype), kernel.Writes workers opcode invocation values
  toList?_eq {values : List (Scalar output.dtype)} :
    kernel.Writes workers opcode invocation values → output.toList? output.dtype = .ok values

/-- What the checks have found for the output of a reduction. -/
theorem Made.of_reduction {reduction : Reduction} {kernel : Kernel}
    (h : Made platform workers reduction.opcode invocation input output kernel) :
    invocation.input 0 = .ok input ∧
      output.layout = reduction.outputLayout input.layout invocation.params ∧
      reduction.kernel? platform input.dtype output.dtype = some kernel := by
  obtain ⟨operation, fresh, hprepared⟩ := h.prepared
  obtain ⟨hlayouts, hkernel⟩ := hprepared.of_reduction
  exact ⟨hprepared.input_eq, List.head_eq_of_cons_eq hlayouts, hkernel⟩

/-- The kernel of a run that has made its output does not refuse it. -/
theorem Made.toList?_of_writes_or_refuses {kernel : Kernel}
    (h : Made platform workers opcode invocation input output kernel)
    {values : List (Scalar output.dtype)}
    (hwrites : kernel.Writes workers opcode invocation values ∨
      ∃ error, kernel.Refuses workers opcode invocation error) :
    output.toList? output.dtype = .ok values := by
  rcases hwrites with hwrites | ⟨error, hrefuses⟩
  · exact h.toList?_eq hwrites
  · obtain ⟨blank, hsucceeds⟩ := h.succeeds
    exact absurd hsucceeds hrefuses.ne_ok

/-- A built-in operation that succeeds without a bound output has made it, and changes nothing
else. -/
theorem exists_made (hinput : invocation.input 0 = .ok input) (hvalid : input.Valid)
    (hplace : invocation.inPlace = false) (hfree : invocation.boundOutput? 0 = none)
    (hrun : (Executor.mk (.builtin platform) workers).run opcode invocation = .ok () after) :
    ∃ output kernel, after = invocation.bindOutput 0 output ∧
      Made platform workers opcode invocation input output kernel := by
  obtain ⟨kernel, fresh, hprepare, hkernel⟩ := run_eq_ok_iff.mp hrun
  obtain ⟨operation, found, layouts, type, hprepared⟩ := prepare_eq_ok_iff.mp hprepare
  obtain rfl : input = found := Except.ok.inj (hinput.symm.trans hprepared.input_eq)
  obtain ⟨⟨extents, order, dtype, rfl⟩, hbuiltin⟩ := hprepared.of_builtin
  obtain rfl : dtype = type :=
    Except.ok.inj ((outputType_of_free hplace hfree _ _).symm.trans hprepared.output_eq)
  obtain ⟨blank, hzeros, rfl⟩ := freshOutputs_singleton hplace hfree hprepared.fresh_eq
  -- The kernel succeeds on the new array, so that it does not refuse.
  obtain ⟨values, hlimit, hwrites⟩ | ⟨error, hrefuses⟩ :=
    hbuiltin.writes_or_refuses hplace hinput hvalid rfl
  · obtain ⟨output, hwrite, rfl⟩ := hwrites.exists_write hplace hkernel
    obtain ⟨hlength, cells, _, rfl⟩ := Tensor.write_eq_ok_iff.mp hwrite
    obtain rfl := Tensor.zeros_eq_ok hzeros
    have hvolume : volume extents < Size.limit :=
      calc volume extents = values.length := hlength.symm
        _ < Size.limit := hlimit
    have hblank := Tensor.valid_zeros (addressable_packed hvolume order dtype) hzeros
    have hnodup := nodup_offsets_packed hvolume order dtype
    refine ⟨_, kernel, rfl, ⟨operation, _, hprepared⟩, ⟨_, hkernel⟩, hblank.of_write hwrite,
      ⟨values, hwrites⟩, fun hothers ↦ ?_⟩
    obtain ⟨other, hwrite', hafter⟩ := hothers.exists_write hplace hkernel
    obtain rfl := Invocation.bindOutput_injective hafter
    exact hblank.toList?_of_write hnodup hwrite'
  · exact absurd hkernel hrefuses.ne_ok

end Executor

end ArrayEngine
