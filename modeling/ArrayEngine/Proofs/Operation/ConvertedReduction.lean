import ArrayEngine.Proofs.Operation.Conversion
import ArrayEngine.Proofs.Operation.Inference
import ArrayEngine.Proofs.Operation.IntegerReduction
import ArrayEngine.Proofs.Operation.Registry
import ArrayEngine.Proofs.Operation.RequestedType
import ArrayEngine.Proofs.Reduction.Converted
import ArrayEngine.Proofs.Tensor.Packed

/-!
# Reductions of converted arrays

A sum or a product of small integers easily leaves their type, and is then kept modulo its width. If
the array is converted to `i64` first, more digits are kept, and those that the first way keeps are
the same. `conversion_keeps_residues` says so of the runs of the operations, together with the laws
of the conversion of single integers on which this rests. If the array has elements, the second way
succeeds where the first one does, as long as there is memory for the wider results.
-/

namespace ArrayEngine

open Layout Reduction

/-- The kernel that makes `i64` of integers converts them one by one. -/
theorem Transform.kernel?_toInt64 {platform : Platform} {dtype : DType} (hint : dtype.isInt) :
    Transform.toInt64.kernel? platform dtype .i64 = some (Kernel.convert dtype .i64) := by
  have hcomputes := platform.computes_of_isInt hint
  have hbool := Platform.not_isBool_of_computes hcomputes
  simp [kernel?, target?, hcomputes, hbool]

/-- The kernel of a reduction of integers to their own type is the one that has an integer
accumulator. -/
theorem Reduction.kernel?_of_isInt {reduction : Reduction} (platform : Platform) {dtype : DType}
    (hint : dtype.isInt) (hsame : reduction.outputRule = .sameAsInput) :
    reduction.kernel? platform dtype dtype = some (Kernel.reduceInts dtype) := by
  have hcomputes := platform.computes_of_isInt hint
  simp [kernel?, hcomputes, hsame, hint]

namespace Executor

/-- A run of an operation on an array has made an output: it was not in place, and no output was
bound before. -/
structure Yields (platform : Platform) (workers : Workers) (opcode : Nat)
    (invocation : Invocation) (input output : Tensor) : Prop where
  input_eq : invocation.input 0 = .ok input
  inPlace_eq : invocation.inPlace = false
  boundOutput?_eq : invocation.boundOutput? 0 = none
  exists_run : ∃ after,
    (Executor.mk (.builtin platform) workers).run opcode invocation = .ok () after ∧
      after.output 0 = .ok output

variable {platform : Platform} {workers workers₁ workers₂ : Workers} {reduction : Reduction}
  {opcode : Nat} {invocation direct first second : Invocation} {params params₁ params₂ : Params}
  {input wide output output₂ blank blank₁ blank₂ : Tensor} {axes : List Nat}

/-! ## What the runs make -/

/-- The conversion to `i64` makes an array without gaps of the same order. It lists the elements in
their order, each converted. -/
theorem Yields.toInt64 (h : Yields platform workers Transform.toInt64.opcode invocation input wide)
    (hvalid : input.Valid) (hint : input.dtype.isInt) {elements : List (Scalar input.dtype)}
    (helements : input.toList? input.dtype = .ok elements) :
    wide.Valid ∧ wide.layout = .packed input.extents input.layout.order .i64 ∧
      wide.toList? .i64 = .ok (elements.map (Scalar.convert workers.platform .i64)) := by
  obtain ⟨after, hrun, houtput⟩ := h.exists_run
  obtain ⟨made, kernel, rfl, hmade⟩ :=
    exists_made h.input_eq hvalid h.inPlace_eq h.boundOutput?_eq hrun
  rw [Invocation.output_bindOutput h.inPlace_eq] at houtput
  obtain rfl : made = wide := Except.ok.inj houtput
  obtain ⟨operation, fresh, hprepared⟩ := hmade.prepared
  have hlayout : made.layout = .packed input.extents input.layout.order .i64 :=
    List.head_eq_of_cons_eq hprepared.of_transform.1
  have hlist := hmade.toList?_transferred (.inl ⟨.toInt64, rfl⟩) h.inPlace_eq hvalid.addressable
    helements
  have hdtype : made.dtype = .i64 := congrArg Layout.dtype hlayout
  rw [hdtype, Scalar.transferred_eq_convert hint rfl] at hlist
  exact ⟨hmade.valid, hlayout, hlist⟩

/-- A reduction of integers makes a row-major array that lists the results of the engine. -/
theorem Yields.exists_reduceAlong {layout : Layout} {cells : Array (Scalar layout.dtype)}
    (h : Yields platform workers reduction.opcode invocation ⟨layout, ⟨layout.dtype, cells⟩⟩ output)
    (hint : layout.dtype.isInt) (hsame : reduction.outputRule = .sameAsInput)
    (hlayout : layout.Addressable) (hcells : layout.requiredCells ≤ cells.size)
    (haxes : resolveAxes invocation.params.axes layout.rank = axes) (hne : axes ≠ []) :
    ∃ split, layout.splitAlong axes = .ok split ∧
      output.layout =
        .packed (outputExtents layout.extents axes invocation.params.keepDims) .rowMajor
          layout.dtype ∧
      output.toList? layout.dtype =
        .ok (reduceAlong workers (reduction.intStrategy layout.dtype) cells layout none split) := by
  obtain ⟨after, hrun, houtput⟩ := h.exists_run
  obtain ⟨split, results, hsplit, rfl, hlimit, hlength, hmade⟩ :=
    exists_reduceAlong_of_run hint hsame haxes rfl h.inPlace_eq h.boundOutput?_eq hne h.input_eq
      hlayout hcells hrun
  obtain rfl := Except.ok.inj (hmade.symm.trans houtput)
  exact ⟨split, hsplit, rfl, Tensor.toList?_ofElements hlimit hlength⟩

/-- Reducing an array of integers, and reducing what it is converted to, gives results that agree
modulo the width of the integers. -/
theorem Yields.forall₂_modEq (hreduction : reduction = .sum ∨ reduction = .prod)
    (hvalid : input.Valid) (hint : input.dtype.isInt)
    (hdirect : Yields platform workers reduction.opcode direct input output)
    (hfirst : Yields platform workers₁ Transform.toInt64.opcode first input wide)
    (hsecond : Yields platform workers₂ reduction.opcode second wide output₂)
    (haxes : resolveAxes direct.params.axes input.layout.rank = axes)
    (haxes₂ : resolveAxes second.params.axes wide.layout.rank = axes) (hne : axes ≠ []) :
    output.layout =
        .packed (outputExtents input.extents axes direct.params.keepDims) .rowMajor input.dtype ∧
      output₂.layout =
        .packed (outputExtents input.extents axes second.params.keepDims) .rowMajor .i64 ∧
      ∃ results results₂, output.toList? input.dtype = .ok results ∧
        output₂.toList? .i64 = .ok results₂ ∧
        List.Forall₂ (fun result result₂ ↦
          result₂.value ≡ result.value [ZMOD 2 ^ input.dtype.width]) results results₂ := by
  have hsame := outputRule_of_sum_or_prod hreduction
  obtain ⟨elements, helements, -⟩ := hvalid.exists_toList? rfl
  obtain ⟨hwide, hpacked, hconverted⟩ := hfirst.toInt64 hvalid hint helements
  obtain ⟨layout, ⟨dtype, cells⟩⟩ := input
  obtain rfl : dtype = layout.dtype := hvalid.dtype_eq
  obtain ⟨widened, storage⟩ := wide
  obtain rfl : widened = .packed layout.extents layout.order .i64 := hpacked
  obtain ⟨others, rfl, -⟩ := (Tensor.toList?_eq_ok_iff hwide.addressable).mp hconverted
  -- The converted array holds at all coordinates the converted element.
  have hagree := hvalid.agree_of_toList?_map hwide rfl rfl rfl rfl helements hconverted
  obtain ⟨split, hsplit, hlayout, hlist⟩ :=
    hdirect.exists_reduceAlong hint hsame hvalid.addressable hvalid.requiredCells_le haxes hne
  obtain ⟨split₂, hsplit₂, hlayout₂, hlist₂⟩ :=
    hsecond.exists_reduceAlong rfl hsame hwide.addressable hwide.requiredCells_le haxes₂ hne
  refine ⟨hlayout, hlayout₂, _, _, hlist, hlist₂, ?_⟩
  exact forall₂_modEq_reduceAlong hreduction hint rfl (Scalar.width_le_width_i64 _) hagree
    hvalid.addressable hvalid.requiredCells_le hwide.addressable hwide.requiredCells_le hne hsplit
    hsplit₂ workers workers₂ none none

/-! ## Success of the runs -/

/-- A run makes an output if a layout is inferred for it, an array can be made for the layout, and
the kernel writes as many elements as this array has. -/
theorem Yields.of_writes {layout : Layout} {kernel : Kernel} {values : List (Scalar layout.dtype)}
    (hlayouts : (Executor.mk (.builtin platform) workers).outputLayouts opcode [input.layout]
      params = .ok [layout])
    (hkernel : (Registry.builtin platform).kernel? opcode input.dtype layout.dtype = some kernel)
    (hzeros : Tensor.zeros workers.platform layout = .ok blank)
    (hwrites : kernel.Writes workers opcode ⟨[input], [], params, false⟩ values)
    (hlength : values.length = layout.size) :
    ∃ output, Yields platform workers opcode ⟨[input], [], params, false⟩ input output := by
  have hplace : (Invocation.mk [input] [] params false).inPlace = false := rfl
  have hfree : (Invocation.mk [input] [] params false).boundOutput? 0 = none := rfl
  have hfound := ((Registry.consistent_builtin platform).kernelFor_eq_ok_iff workers).mpr hkernel
  obtain ⟨operation, hprepared⟩ := prepared_of_inferred hfree hlayouts hfound hzeros
  -- The new array has just the place for what the kernel writes.
  obtain ⟨left, hwrite⟩ : ∃ left, Tensor.write values blank = .ok () left := by
    rw [Tensor.zeros_eq_ok hzeros]
    exact ⟨_, Tensor.write_eq_ok_iff.mpr ⟨hlength, _, rfl, rfl⟩⟩
  have hprepare := prepare_eq_ok_iff.mpr ⟨_, _, _, _, hprepared⟩
  exact ⟨left, rfl, hplace, hfree, _,
    run_eq_ok_iff.mpr ⟨kernel, _, hprepare, hwrites.eq_ok hplace hwrite⟩,
    Invocation.output_bindOutput hplace⟩

section

variable (hvalid : input.Valid) (hint : input.dtype.isInt)

include hvalid hint

/-- Integers are converted to `i64` if an array can be made for them. -/
theorem exists_yields_toInt64 (platform : Platform) (params : Params)
    (hzeros : Tensor.zeros workers.platform (.packed input.extents input.layout.order .i64) =
      .ok blank) :
    ∃ wide, Yields platform workers Transform.toInt64.opcode ⟨[input], [], params, false⟩ input
      wide := by
  have hlayouts : (Executor.mk (.builtin platform) workers).outputLayouts
      Transform.toInt64.opcode [input.layout] params =
        .ok [.packed input.extents input.layout.order .i64] :=
    bind_eq_ok.mpr ⟨_, Registry.operation_builtin_transform platform .toInt64,
      bind_eq_ok.mpr ⟨(), rfl, rfl⟩⟩
  obtain ⟨values, hlength, -, hwrites⟩ : ∃ values : List (Scalar .i64),
      values.length = input.size ∧ _ ∧
        (Kernel.convert input.dtype .i64).Writes workers Transform.toInt64.opcode
          ⟨[input], [], params, false⟩ values :=
    Kernel.writes_convert rfl rfl hvalid rfl fun _ ↦ workers.platform.computes_of_isInt rfl
  refine Yields.of_writes hlayouts ?_ hzeros hwrites hlength
  rw [Registry.kernel?_builtin_transform]
  exact Transform.kernel?_toInt64 hint

/-- Integers are reduced along axes that split the array if an array can be made for the results. -/
theorem exists_yields_reduction (hsame : reduction.outputRule = .sameAsInput) {split : AxisSplit}
    (hsplit : input.layout.splitAlong axes = .ok split) (hne : axes ≠ [])
    (haxes : resolveAxes params.axes input.layout.rank = axes) (hdtype : params.dtype = none)
    (hzeros : Tensor.zeros workers.platform
      (.packed (outputExtents input.extents axes params.keepDims) .rowMajor input.dtype) =
        .ok blank) :
    ∃ output, Yields platform workers reduction.opcode ⟨[input], [], params, false⟩ input
      output := by
  obtain ⟨mask, hmask, -⟩ := splitAlong_eq_ok hsplit
  have hlayout : reduction.outputLayout input.layout params =
      .packed (outputExtents input.extents axes params.keepDims) .rowMajor input.dtype := by
    rw [outputLayout, haxes, hdtype, defaultOutput, hsame]
    rfl
  have hlayouts : (Executor.mk (.builtin platform) workers).outputLayouts reduction.opcode
      [input.layout] params = _ := outputLayouts_reduction (haxes.symm ▸ hmask)
  rw [hlayout] at hlayouts
  have hkernel := kernel?_of_isInt platform hint hsame
  obtain ⟨values, hlength, hwrites⟩ : ∃ values : List (Scalar input.dtype),
      values.length = volume (across axes input.extents) ∧
        (Kernel.reduceWith (reduction.intStrategy input.dtype)).Writes workers reduction.opcode
          ⟨[input], [], params, false⟩ values :=
    Kernel.writes_reduceWith rfl haxes hvalid rfl hne hsplit
  have hcount := isSome_count?_across hvalid.addressable.length_strides hne hsplit
  refine Yields.of_writes hlayouts ?_ hzeros
    (hwrites.of_eq (kernel_eq_of_isInt hint hsame hkernel workers))
    (hlength.trans (volume_outputExtents params.keepDims hcount).2.symm)
  rw [Registry.kernel?_builtin]
  exact hkernel

end

/-- If an array with elements and not too many axes can be reduced, it can be converted to `i64` and
then reduced along the same axes, if there is memory for it. -/
theorem Yields.exists_converted (hreduction : reduction = .sum ∨ reduction = .prod)
    (hvalid : input.Valid) (hint : input.dtype.isInt)
    (hdirect : Yields platform workers reduction.opcode direct input output)
    (haxes : resolveAxes direct.params.axes input.layout.rank = axes) (hne : axes ≠ [])
    (hrank : input.layout.rank ≤ maxRank) (hpos : 0 < input.size)
    (haxes₂ : resolveAxes params₂.axes input.layout.rank = axes) (hdtype : params₂.dtype = none)
    (hzeros₁ : Tensor.zeros workers₁.platform (.packed input.extents input.layout.order .i64) =
      .ok blank₁)
    (hzeros₂ : Tensor.zeros workers₂.platform
      (.packed (outputExtents input.extents axes params₂.keepDims) .rowMajor .i64) = .ok blank₂) :
    ∃ wide output₂,
      Yields platform workers₁ Transform.toInt64.opcode ⟨[input], [], params₁, false⟩ input wide ∧
      Yields platform workers₂ reduction.opcode ⟨[wide], [], params₂, false⟩ wide output₂ := by
  have hsame := outputRule_of_sum_or_prod hreduction
  obtain ⟨elements, helements, -⟩ := hvalid.exists_toList? rfl
  obtain ⟨wide, hfirst⟩ := exists_yields_toInt64 hvalid hint platform params₁ hzeros₁
  obtain ⟨hwide, hpacked, -⟩ := hfirst.toInt64 hvalid hint helements
  obtain ⟨layout, ⟨dtype, cells⟩⟩ := input
  obtain rfl : dtype = layout.dtype := hvalid.dtype_eq
  obtain ⟨widened, storage⟩ := wide
  obtain rfl : widened = .packed layout.extents layout.order .i64 := hpacked
  -- The axes exist and are listed once, since the array itself was split along them.
  obtain ⟨split, hsplit, -⟩ :=
    hdirect.exists_reduceAlong hint hsame hvalid.addressable hvalid.requiredCells_le haxes hne
  obtain ⟨mask, hmask, -⟩ := splitAlong_eq_ok hsplit
  obtain ⟨split₂, hsplit₂⟩ := hwide.addressable.exists_splitAlong hrank hpos hmask
  obtain ⟨output₂, hsecond⟩ := exists_yields_reduction hwide rfl hsame hsplit₂ hne haxes₂ hdtype
    hzeros₂
  exact ⟨_, output₂, hfirst, hsecond⟩

/-- Between integer types, the conversion of an element is the element of the target that agrees
with it modulo the width of the target. So a conversion may go by way of a type that is no narrower
than the target, an element comes back from a type that is no narrower than its own, and a
conversion to a type that is no wider goes along with sums and products. In the same way, the sums
or the products of an array along some axes agree, modulo the width of its type, with those of the
array converted to `i64`, whatever workers there are for each of the three runs. If the array has
elements and not too many axes, the runs by way of `i64` succeed as soon as there is memory for what
they make. -/
theorem conversion_keeps_residues {source middle target : DType} (hsource : source.isInt)
    (hmiddle : middle.isInt) (htarget : target.isInt) :
    (∀ (platform : Platform) (x : Scalar source),
      (∀ y : Scalar target,
        y = x.convert platform target ↔ y.value ≡ x.value [ZMOD 2 ^ target.width]) ∧
      (target.width ≤ middle.width →
        (x.convert platform middle).convert platform target = x.convert platform target) ∧
      (source.width ≤ middle.width → (x.convert platform middle).convert platform source = x) ∧
      (target.width ≤ source.width → ∀ y : Scalar source,
        (x.add y).convert platform target =
            (x.convert platform target).add (y.convert platform target) ∧
          (x.mul y).convert platform target =
            (x.convert platform target).mul (y.convert platform target))) ∧
    ∀ {platform : Platform} {workers : Workers} {reduction : Reduction} {direct : Invocation}
      {input output : Tensor} {axes : List Nat},
      input.Valid → input.dtype = source → (reduction = .sum ∨ reduction = .prod) →
      Yields platform workers reduction.opcode direct input output →
      resolveAxes direct.params.axes input.layout.rank = axes → axes ≠ [] →
      ∀ workers₁ workers₂ : Workers,
      (∀ {first second : Invocation} {wide output₂ : Tensor},
        Yields platform workers₁ Transform.toInt64.opcode first input wide →
        Yields platform workers₂ reduction.opcode second wide output₂ →
        resolveAxes second.params.axes wide.layout.rank = axes →
          output.layout =
              .packed (outputExtents input.extents axes direct.params.keepDims) .rowMajor source ∧
            output₂.layout =
              .packed (outputExtents input.extents axes second.params.keepDims) .rowMajor .i64 ∧
            ∃ results results₂, output.toList? source = .ok results ∧
              output₂.toList? .i64 = .ok results₂ ∧
              List.Forall₂ (fun result result₂ ↦
                result₂.value ≡ result.value [ZMOD 2 ^ source.width]) results results₂) ∧
      ∀ (params₁ params₂ : Params) {blank₁ blank₂ : Tensor},
        input.layout.rank ≤ maxRank → 0 < input.size →
        resolveAxes params₂.axes input.layout.rank = axes → params₂.dtype = none →
        Tensor.zeros workers₁.platform (.packed input.extents input.layout.order .i64) =
          .ok blank₁ →
        Tensor.zeros workers₂.platform
          (.packed (outputExtents input.extents axes params₂.keepDims) .rowMajor .i64) =
            .ok blank₂ →
          ∃ wide output₂,
            Yields platform workers₁ Transform.toInt64.opcode ⟨[input], [], params₁, false⟩ input
              wide ∧
            Yields platform workers₂ reduction.opcode ⟨[wide], [], params₂, false⟩ wide
              output₂ := by
  refine ⟨fun platform x ↦ ⟨fun y ↦ Scalar.eq_convert_iff hsource htarget,
    Scalar.convert_convert hsource htarget hmiddle x,
    Scalar.convert_convert_self hsource hmiddle x,
    fun hwidth y ↦ ⟨Scalar.convert_add hsource htarget hwidth x y,
      Scalar.convert_mul hsource htarget hwidth x y⟩⟩, ?_⟩
  intro platform workers reduction direct input output axes hvalid hdtype hreduction hdirect haxes
    hne workers₁ workers₂
  subst hdtype
  refine ⟨?residues, ?runs⟩
  case residues =>
    intro first second wide output₂ hfirst hsecond haxes₂
    exact hdirect.forall₂_modEq hreduction hvalid hsource hfirst hsecond haxes haxes₂ hne
  case runs =>
    intro params₁ params₂ blank₁ blank₂ hrank hpos haxes₂ hrequested hzeros₁ hzeros₂
    exact hdirect.exists_converted hreduction hvalid hsource haxes hne hrank hpos haxes₂ hrequested
      hzeros₁ hzeros₂

/-- A column-major array of bytes with a gap between its columns. -/
def gappedColumns : Tensor :=
  .gapped .columnMajor ⟨100⟩ ⟨100⟩ ⟨100⟩ ⟨251⟩

/-- The products of its rows, of which `i8` keeps the last eight digits. -/
def gappedColumnsProducts : Tensor :=
  ⟨packed [2] .rowMajor .i8, ⟨.i8, #[⟨16⟩, ⟨12⟩]⟩⟩

/-- The products of the rows of a column-major array with a gap. In `i8`, only the last eight digits
are kept of what they are in `i64`. -/
theorem conversion_keeps_residues_gapped :
    gappedColumns.Valid ∧
      Yields .small .small prod.opcode ⟨[gappedColumns], [], ⟨some [1], false, none⟩, false⟩
        gappedColumns gappedColumnsProducts ∧
      ∃ wide output₂ results₂,
        Yields .small ⟨.small, ⟨some 1, 1⟩, 1⟩ Transform.toInt64.opcode
          ⟨[gappedColumns], [], {}, false⟩ gappedColumns wide ∧
        Yields .small ⟨.small, ⟨some 2, 1⟩, 2⟩ prod.opcode
          ⟨[wide], [], ⟨some [1], true, none⟩, false⟩ wide output₂ ∧
        output₂.layout = packed [2, 1] .rowMajor .i64 ∧ output₂.toList? .i64 = .ok results₂ ∧
        List.Forall₂ (fun result result₂ ↦
          result₂.value ≡ result.value [ZMOD 2 ^ DType.i8.width])
          [(⟨16⟩ : Scalar .i8), ⟨12⟩] results₂ := by
  have hvalid : gappedColumns.Valid := Tensor.valid_gapped _ _ _ _ _
  have hint : DType.i8.isInt := rfl
  have hone : [1] ≠ [] := List.cons_ne_nil 1 []
  have hdirect : Yields .small .small prod.opcode
      ⟨[gappedColumns], [], ⟨some [1], false, none⟩, false⟩ gappedColumns gappedColumnsProducts :=
    ⟨rfl, rfl, rfl, _, rfl, rfl⟩
  obtain ⟨hresidues, hruns⟩ := (conversion_keeps_residues hint hint hint).2 hvalid rfl
    (.inr rfl) hdirect rfl hone ⟨.small, ⟨some 1, 1⟩, 1⟩ ⟨.small, ⟨some 2, 1⟩, 2⟩
  obtain ⟨wide, output₂, hfirst, hsecond⟩ :=
    hruns {} ⟨some [1], true, none⟩ (by decide) (by decide) rfl rfl rfl rfl
  obtain ⟨-, hpacked, results, results₂, hresults, hresults₂, hmod⟩ :=
    hresidues hfirst hsecond rfl
  cases hresults
  exact ⟨hvalid, hdirect, wide, output₂, results₂, hfirst, hsecond, hpacked, hresults₂, hmod⟩

end Executor

end ArrayEngine
