import ArrayEngine.Proofs.Operation.Writes

/-!
# Conversions and copies

The conversions, the copy and the reductions along no axis all write the elements of their input one
after another, each as `Scalar.transferred` says: between equal types unchanged, and between integer
types modulo the width of the target (`Scalar.value_transferred`). `Executor.run_transferred` says
that a run leaves just this list, whether its output was made for it or bound before, and however
the input and the output lie in their buffers.
-/

namespace ArrayEngine

open Layout Reduction

/-! ## Elements -/

namespace Scalar

/-- An element as the operations that keep the shape write it: between equal types the element
itself, for a truth value the number one or zero, and otherwise its conversion. -/
def transferred {input : DType} (platform : Platform) (output : DType) (x : Scalar input) :
    Scalar output :=
  if h : input = output then h ▸ x
  else if input.isBool then if x.pattern ≠ 0 then one output else zero output
  else x.convert platform output

variable {platform : Platform} {input output : DType}

theorem transferred_eq_carried (h : input.isBool → input = output) :
    (transferred platform output : Scalar input → Scalar output) = carried platform output := by
  funext x
  by_cases hsame : input = output
  · rw [transferred, carried, dif_pos hsame, dif_pos hsame]
  · have hbool : ¬input.isBool := fun hbool ↦ hsame (h hbool)
    rw [transferred, carried, dif_neg hsame, dif_neg hsame, if_neg hbool]

theorem transferred_eq_ofTruth (h : output ≠ .bool) :
    (transferred platform output : Scalar .bool → Scalar output) = ofTruth output := by
  funext x
  rw [transferred, dif_neg h.symm, ofTruth]
  rfl

/-- Between integer types, the number is kept modulo the width of the target. -/
theorem value_transferred (hinput : input.isInt) (houtput : output.isInt) (x : Scalar input) :
    (x.transferred platform output).value ≡ x.value [ZMOD 2 ^ output.width] := by
  have hbool : input.isBool → input = output := fun hbool ↦ by
    cases input <;> simp [DType.isBool, DType.isInt, DType.isSignedInt, DType.isUnsignedInt] at *
  rw [transferred_eq_carried hbool]
  by_cases hsame : input = output
  · subst hsame
    rw [carried_eq_id]
    exact Int.ModEq.refl _
  · rw [carried_of_ne platform hsame]
    exact value_convert hinput houtput x

/-- Between integer types, an element is transferred by its conversion. -/
theorem transferred_eq_convert (hinput : input.isInt) (houtput : output.isInt) :
    (transferred platform output : Scalar input → Scalar output) = convert platform output :=
  funext fun x ↦ (eq_convert_iff hinput houtput).mpr (value_transferred hinput houtput x)

end Scalar

/-! ## Kernels -/

/-- Truth values are not computed with. -/
theorem Platform.not_isBool_of_computes {platform : Platform} {dtype : DType}
    (h : platform.computes dtype) : ¬dtype.isBool := by
  cases dtype with
  | bool => cases h
  | _ => exact Bool.false_ne_true

/-- A transform converts truth values, converts numbers to its target, or copies numbers. -/
theorem Transform.kernel?_cases {transform : Transform} {platform : Platform}
    {input output : DType} {kernel : Kernel}
    (h : transform.kernel? platform input output = some kernel) :
    input = .bool ∧ output ≠ .bool ∧ kernel = Kernel.convertTruth output ∨
      ¬input.isBool ∧ kernel = Kernel.convert input output ∨
      input = output ∧ kernel = Kernel.assign input := by
  cases transform with
  | assign =>
      simp only [kernel?, target?] at h
      split at h
      · rename_i hsame
        obtain ⟨hsame, _⟩ := Bool.and_eq_true_iff.mp hsame
        cases h
        exact .inr (.inr ⟨of_decide_eq_true hsame, rfl⟩)
      · cases h
  | toInt64 | toFloat32 | toFloat64 =>
      simp only [kernel?, target?] at h
      split at h
      · cases h
      · rename_i htarget
        obtain rfl := not_not.mp htarget
        split at h
        · rename_i hbool
          have hinput : input = .bool := by cases input <;> first | rfl | cases hbool
          cases h
          exact .inl ⟨hinput, by decide, rfl⟩
        · rename_i hbool
          split at h
          · cases h
            exact .inr (.inl ⟨hbool, rfl⟩)
          · cases h

section

variable {workers : Workers} {platform : Platform} {opcode : Nat} {invocation : Invocation}
  {source : Tensor} {input output : DType} {kernel : Kernel}
  (hplace : invocation.inPlace = false) (hsource : invocation.input 0 = .ok source)
  (hdtype : source.dtype = input) (hlayout : source.layout.Addressable)
  {elements : List (Scalar input)} (helements : source.toList? input = .ok elements)

include hplace hsource hdtype helements

/-- A conversion of numbers writes the elements as they are transferred, or it refuses. -/
theorem Kernel.convert_writes_transferred (hbool : ¬input.isBool) :
    (Kernel.convert input output).Writes workers opcode invocation
        (elements.map (Scalar.transferred workers.platform output)) ∨
      ∃ error, (Kernel.convert input output).Refuses workers opcode invocation error := by
  rw [Scalar.transferred_eq_carried fun h ↦ absurd h hbool]
  exact Kernel.writes_map_carried_or_refuses hplace hsource hdtype helements

include hlayout in
/-- The kernel of a transform writes the elements as they are transferred, or it refuses. -/
theorem Transform.writes_transferred {transform : Transform}
    (hkernel : transform.kernel? platform input output = some kernel) :
    kernel.Writes workers opcode invocation
        (elements.map (Scalar.transferred workers.platform output)) ∨
      ∃ error, kernel.Refuses workers opcode invocation error := by
  rcases kernel?_cases hkernel with ⟨rfl, houtput, rfl⟩ | ⟨hbool, rfl⟩ | ⟨rfl, rfl⟩
  · rw [Scalar.transferred_eq_ofTruth houtput]
    exact .inl (Kernel.writes_map_ofTruth hplace hsource output hlayout helements)
  · exact Kernel.convert_writes_transferred hplace hsource hdtype helements hbool
  · rw [Scalar.transferred_eq_carried fun _ ↦ rfl, Scalar.carried_eq_id, List.map_id]
    exact .inl (Kernel.writes_elements hplace hsource helements)

/-- Along no axis, the kernel of a reduction writes the elements as they are transferred, or it
refuses. -/
theorem Reduction.writes_transferred {reduction : Reduction}
    (hresolved : resolveAxes invocation.params.axes source.layout.rank = [])
    (hkernel : reduction.kernel? platform input output = some kernel) :
    kernel.Writes workers reduction.opcode invocation
        (elements.map (Scalar.transferred workers.platform output)) ∨
      ∃ error, kernel.Refuses workers reduction.opcode invocation error := by
  obtain ⟨β, strategy, heq⟩ := exists_reduceWith_of_kernel? workers hkernel
  simp only [Kernel.Writes, Kernel.Refuses, heq,
    Kernel.reduceWith_bindOutput_eq_convert hsource hresolved rfl]
  exact Kernel.convert_writes_transferred hplace hsource hdtype helements
    (Platform.not_isBool_of_computes (computes_of_kernel? hkernel))

end

/-! ## Runs -/

namespace Executor

variable {platform : Platform} {workers : Workers} {opcode : Nat} {invocation after : Invocation}
  {operation : Operation} {input : Tensor} {layouts : List Layout} {type : DType}
  {kernel : Kernel} {fresh : List (Nat × Tensor)}

/-- The operation keeps the shape of its input: it is a transform, or a reduction along no axis. -/
def KeepsShape (opcode : Nat) (params : Params) : Prop :=
  (∃ transform : Transform, opcode = transform.opcode) ∨
    (∃ reduction : Reduction, opcode = reduction.opcode) ∧ params.axes = some []

/-- The kernel that the checks find for such an operation writes the elements of the input as they
are transferred, or it refuses. -/
theorem Prepared.writes_transferred
    (h : Prepared ⟨.builtin platform, workers⟩ opcode invocation operation input layouts type
      kernel fresh)
    (hkeeps : KeepsShape opcode invocation.params) (hplace : invocation.inPlace = false)
    (hlayout : input.layout.Addressable) {elements : List (Scalar input.dtype)}
    (helements : input.toList? input.dtype = .ok elements) :
    kernel.Writes workers opcode invocation
        (elements.map (Scalar.transferred workers.platform type)) ∨
      ∃ error, kernel.Refuses workers opcode invocation error := by
  rcases hkeeps with ⟨transform, rfl⟩ | ⟨⟨reduction, rfl⟩, haxes⟩
  · obtain ⟨-, hkernel⟩ := h.of_transform
    exact Transform.writes_transferred hplace h.input_eq rfl hlayout helements hkernel
  · obtain ⟨-, hkernel⟩ := h.of_reduction
    have hresolved : resolveAxes invocation.params.axes input.layout.rank = [] := by
      rw [haxes]
      rfl
    exact Reduction.writes_transferred hplace h.input_eq rfl helements hresolved hkernel

/-- With an array bound for the only output, nothing is made for a run, and the output has the type
of that array. -/
theorem Prepared.of_bound {bound : Tensor}
    (h : Prepared ⟨.builtin platform, workers⟩ opcode invocation operation input layouts type
      kernel fresh)
    (hplace : invocation.inPlace = false) (hbound : invocation.boundOutput? 0 = some bound) :
    fresh = [] ∧ type = bound.dtype := by
  obtain ⟨⟨extents, order, dtype, rfl⟩, -⟩ := h.of_builtin
  have hfresh := h.fresh_eq
  simp only [freshOutputs, hplace, allocate, hbound, Bool.false_eq_true, if_false] at hfresh
  exact ⟨(Except.ok.inj hfresh).symm,
    Except.ok.inj (h.output_eq.symm.trans (outputType_of_bound hplace hbound _))⟩

/-- A run that has made its output has left the elements of the input in it, as they are
transferred. -/
theorem Made.toList?_transferred {output : Tensor}
    (h : Made platform workers opcode invocation input output kernel)
    (hkeeps : KeepsShape opcode invocation.params) (hplace : invocation.inPlace = false)
    (hlayout : input.layout.Addressable) {elements : List (Scalar input.dtype)}
    (helements : input.toList? input.dtype = .ok elements) :
    output.toList? output.dtype =
      .ok (elements.map (Scalar.transferred workers.platform output.dtype)) := by
  obtain ⟨operation, fresh, hprepared⟩ := h.prepared
  exact h.toList?_of_writes_or_refuses
    (hprepared.writes_transferred hkeeps hplace hlayout helements)

/-- A run with a bound output leaves the elements of the input in it, as they are transferred, if
each of its elements has a cell of its own. -/
theorem Prepared.toList?_transferred {bound : Tensor}
    (h : Prepared ⟨.builtin platform, workers⟩ opcode invocation operation input layouts type
      kernel fresh)
    (hkeeps : KeepsShape opcode invocation.params) (hplace : invocation.inPlace = false)
    (hlayout : input.layout.Addressable) (hbound : invocation.boundOutput? 0 = some bound)
    (hvalid : bound.Valid) (hnodup : bound.layout.offsets.Nodup)
    (hkernel : kernel workers opcode (bindAll invocation fresh) = .ok () after)
    {elements : List (Scalar input.dtype)} (helements : input.toList? input.dtype = .ok elements) :
    ∃ output, after = invocation.bindOutput 0 output ∧
      output.toList? output.dtype =
        .ok (elements.map (Scalar.transferred workers.platform output.dtype)) := by
  obtain ⟨rfl, rfl⟩ := h.of_bound hplace hbound
  have hstart : bindAll invocation [] = invocation.bindOutput 0 bound :=
    (Invocation.bindOutput_self hbound).symm
  rw [hstart] at hkernel
  rcases h.writes_transferred hkeeps hplace hlayout helements with hwrites | ⟨error, hrefuses⟩
  · obtain ⟨output, hwrite, rfl⟩ := hwrites.exists_write hplace hkernel
    have houtput : output.dtype = bound.dtype := by
      rw [Tensor.dtype, Tensor.layout_of_write hwrite]
      rfl
    refine ⟨output, rfl, ?_⟩
    rw [houtput]
    exact hvalid.toList?_of_write hnodup hwrite
  · exact absurd hkernel hrefuses.ne_ok

/-- If a conversion, a copy or a reduction along no axis succeeds, its output lists the elements of
its input in the same order, each as it is transferred, whether the output was made for the run or
was bound before with a cell for each of its elements. Integers keep their number modulo the width
of the output, without being rounded. -/
theorem run_transferred (hkeeps : KeepsShape opcode invocation.params)
    (hplace : invocation.inPlace = false)
    (hinput : ∀ input, invocation.input 0 = .ok input → input.Valid)
    (hbound : ∀ bound, invocation.boundOutput? 0 = some bound →
      bound.Valid ∧ bound.layout.offsets.Nodup)
    (hrun : (Executor.mk (.builtin platform) workers).run opcode invocation = .ok () after) :
    ∃ input output, invocation.input 0 = .ok input ∧ after.output 0 = .ok output ∧
      ∃ elements, input.toList? input.dtype = .ok elements ∧
        output.toList? output.dtype =
          .ok (elements.map (Scalar.transferred workers.platform output.dtype)) ∧
        (input.dtype.isInt → output.dtype.isInt → ∀ x ∈ elements,
          (x.transferred workers.platform output.dtype).value ≡
            x.value [ZMOD 2 ^ output.dtype.width]) := by
  obtain ⟨kernel, fresh, hprepare, hkernel⟩ := run_eq_ok_iff.mp hrun
  obtain ⟨operation, input, layouts, type, hprepared⟩ := prepare_eq_ok_iff.mp hprepare
  have hsource := hprepared.input_eq
  have hvalid := hinput input hsource
  have hlayout := hvalid.addressable
  obtain ⟨elements, helements, -⟩ := hvalid.exists_toList? rfl
  have houtput : ∃ output, after = invocation.bindOutput 0 output ∧
      output.toList? output.dtype =
        .ok (elements.map (Scalar.transferred workers.platform output.dtype)) := by
    cases hslot : invocation.boundOutput? 0 with
    | none =>
        obtain ⟨output, kernel, hafter, hmade⟩ := exists_made hsource hvalid hplace hslot hrun
        exact ⟨output, hafter, hmade.toList?_transferred hkeeps hplace hlayout helements⟩
    | some bound =>
        obtain ⟨hvalid, hnodup⟩ := hbound bound hslot
        exact hprepared.toList?_transferred hkeeps hplace hlayout hslot hvalid hnodup hkernel
          helements
  obtain ⟨output, rfl, hlist⟩ := houtput
  refine ⟨input, output, hsource, Invocation.output_bindOutput hplace, elements, helements, hlist,
    ?_⟩
  intro hint houtput x _
  exact Scalar.value_transferred hint houtput x

/-- A transposed array of unsigned numbers, two of which are no double-precision numbers. -/
def transposedNumbers : Tensor :=
  ⟨make [2, 2] [1, 2] .rowMajor .u64,
    ⟨.u64, #[⟨9007199254740993⟩, ⟨18446744073709551615⟩, ⟨3⟩, ⟨4⟩]⟩⟩

/-- An array of signed numbers with a gap behind its first row. -/
def gappedRows (first second : List (Scalar .i64)) : Tensor :=
  ⟨make [2, 2] [3, 1] .rowMajor .i64, ⟨.i64, (first ++ ⟨99⟩ :: second).toArray⟩⟩

theorem valid_transposedNumbers : transposedNumbers.Valid := by
  have haccepted : strided [2, 2] [1, 2] .rowMajor .u64 = .ok transposedNumbers.layout := rfl
  exact ⟨addressable_of_strided haccepted, rfl, by decide⟩

theorem valid_gappedRows : (gappedRows [⟨0⟩, ⟨0⟩] [⟨0⟩, ⟨0⟩]).Valid := by
  have haccepted : strided [2, 2] [3, 1] .rowMajor .i64 =
      .ok (gappedRows [⟨0⟩, ⟨0⟩] [⟨0⟩, ⟨0⟩]).layout := rfl
  exact ⟨addressable_of_strided haccepted, rfl, by decide⟩

/-- The conversion of the transposed array to signed numbers, in an array with gaps. -/
def toGappedRows (first second : List (Scalar .i64)) : Invocation :=
  ⟨[transposedNumbers], [some (gappedRows first second)], {}, false⟩

/-- The small machine, with 16-bit numbers that are rounded from the upper half of a
double-precision number. -/
def halves : Workers :=
  { Workers.small with platform := { Platform.small with halfPrecision := true } }

/-- The mean along no axis of a number that is no 16-bit number, and nearer to the larger one of the
two around it; the lower half of its digits says so. -/
def meanOfOne (outputs : List (Option Tensor)) : Invocation :=
  ⟨[⟨packed [1] .rowMajor .f64, ⟨.f64, #[⟨0x3FF0100000000100⟩]⟩⟩], outputs,
    { axes := some [], dtype := some .bf16 }, false⟩

/-- Unsigned numbers are converted to signed ones without being rounded. A double-precision number
is rounded to a 16-bit one as the machine does it. -/
theorem run_transferred_transposed :
    (gappedRows [⟨0⟩, ⟨0⟩] [⟨0⟩, ⟨0⟩]).layout.offsets.Nodup ∧
      Executor.small.run Transform.toInt64.opcode (toGappedRows [⟨0⟩, ⟨0⟩] [⟨0⟩, ⟨0⟩]) =
        .ok () (toGappedRows [⟨9007199254740993⟩, ⟨3⟩] [⟨-1⟩, ⟨4⟩]) ∧
      (gappedRows [⟨9007199254740993⟩, ⟨3⟩] [⟨-1⟩, ⟨4⟩]).toList? .i64 =
        .ok ([Scalar.mk 9007199254740993, ⟨3⟩, ⟨18446744073709551615⟩, ⟨4⟩].map
          (Scalar.transferred .small .i64 : Scalar .u64 → Scalar .i64)) ∧
      (Executor.mk (.builtin halves.platform) halves).run Reduction.mean.opcode (meanOfOne []) =
        .ok () (meanOfOne [some ⟨packed [1] .rowMajor .bf16, ⟨.bf16, #[⟨0x3F80⟩]⟩⟩]) ∧
      (⟨0x3F80⟩ : Scalar .bf16) =
        Scalar.transferred halves.platform .bf16 (⟨0x3FF0100000000100⟩ : Scalar .f64) := by
  have hnodup : (gappedRows [⟨0⟩, ⟨0⟩] [⟨0⟩, ⟨0⟩]).layout.offsets.Nodup := by decide
  have hrun : Executor.small.run Transform.toInt64.opcode (toGappedRows [⟨0⟩, ⟨0⟩] [⟨0⟩, ⟨0⟩]) =
      .ok () (toGappedRows [⟨9007199254740993⟩, ⟨3⟩] [⟨-1⟩, ⟨4⟩]) := rfl
  have hmean : (Executor.mk (.builtin halves.platform) halves).run Reduction.mean.opcode
      (meanOfOne []) =
        .ok () (meanOfOne [some ⟨packed [1] .rowMajor .bf16, ⟨.bf16, #[⟨0x3F80⟩]⟩⟩]) := rfl
  refine ⟨hnodup, hrun, ?signed, hmean, ?halves⟩
  case signed =>
    have hresult := run_transferred (.inl ⟨.toInt64, rfl⟩) rfl ?hinput ?hbound hrun
    case hinput =>
      intro input h
      cases h
      exact valid_transposedNumbers
    case hbound =>
      intro bound h
      cases h
      exact ⟨valid_gappedRows, hnodup⟩
    obtain ⟨input, output, hfirst, houtput, elements, helements, hlist, -⟩ := hresult
    cases hfirst
    cases houtput
    cases helements
    exact hlist
  case halves =>
    have hresult := run_transferred (.inr ⟨⟨.mean, rfl⟩, rfl⟩) rfl ?hinput ?hbound hmean
    case hinput =>
      intro input h
      cases h
      exact Tensor.valid_ofElements (by decide) rfl .rowMajor
    case hbound =>
      intro bound h
      cases h
    obtain ⟨input, output, hfirst, houtput, elements, helements, hlist, -⟩ := hresult
    cases hfirst
    cases houtput
    cases helements
    exact List.head_eq_of_cons_eq (Except.ok.inj hlist)

end Executor

end ArrayEngine
