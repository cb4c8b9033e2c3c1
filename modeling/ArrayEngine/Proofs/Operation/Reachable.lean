import ArrayEngine.Proofs.Operation.Failure
import ArrayEngine.Proofs.Reduction.Reads
import ArrayEngine.Proofs.Tensor.Packed

/-!
# Arrays that a program can have

A program makes arrays from layouts and from lists of elements, reads them through other layouts,
writes to them, and runs built-in operations on them. `Tensor.Reachable.valid` says that every array
it can come by in this way has a buffer of the type and with the cells that its layout asks for, and
`Tensor.Reachable.reads_within` that whatever reads or writes its elements stays within this buffer.
-/

namespace ArrayEngine

open Layout

theorem Storage.length_toBytes (storage : Storage) :
    storage.toBytes.length = storage.byteSize := by
  simp [toBytes, byteSize, size]

/-- A cell takes at least one byte. -/
theorem Storage.size_le_byteSize (storage : Storage) : storage.size ≤ storage.byteSize :=
  Nat.le_mul_of_pos_right _ storage.dtype.bytes_pos

/-! ## Writes -/

namespace Tensor

variable {tensor left source : Tensor}

/-- All elements of the array were written, and nothing else has happened to it. -/
def Written (tensor left : Tensor) : Prop :=
  ∃ (dtype : DType) (values : List (Scalar dtype)), write values tensor = .ok () left

theorem Written.valid (h : tensor.Written left) (htensor : tensor.Valid) : left.Valid := by
  obtain ⟨dtype, values, hwrite⟩ := h
  exact htensor.of_write hwrite

/-- A change that fills an array has written all its elements. -/
theorem Fills.written {fill : Update Tensor} (h : Fills fill) (hfill : fill tensor = .ok () left) :
    tensor.Written left := by
  obtain ⟨dtype, values, rfl⟩ := h.exists_eq_write hfill
  exact ⟨dtype, values, hfill⟩

/-- A write, successful or not, leaves a valid array. -/
theorem Valid.after_write {dtype : DType} (values : List (Scalar dtype)) (htensor : tensor.Valid) :
    (Update.after (write values) tensor).Valid := by
  unfold Update.after
  cases hwrite : write values tensor with
  | ok _ left => exact htensor.of_write hwrite
  | error error left =>
      rw [atomic_write values tensor error left hwrite]
      exact htensor

/-- A write to a single cell, inside the buffer or not, leaves a valid array. -/
theorem Valid.after_setCell {dtype : DType} (offset : Nat) (value : Scalar dtype)
    (htensor : tensor.Valid) : (Update.after (setCell offset value) tensor).Valid := by
  obtain ⟨layout, ⟨held, cells⟩⟩ := tensor
  unfold Update.after setCell
  by_cases hdtype : held = dtype
  · subst hdtype
    simp only [Storage.modify?, Storage.cells?_self, Except.map]
    refine ⟨htensor.addressable, htensor.dtype_eq, ?_⟩
    show layout.requiredCells ≤ (cells.setIfInBounds offset value).size
    rw [Array.size_setIfInBounds]
    exact htensor.requiredCells_le
  · simp only [Storage.modify?, Storage.cells?, hdtype, Except.map, dite_false]
    exact htensor

/-- A copy without gaps is valid. -/
theorem Valid.of_toPacked {platform : Platform} {other : Tensor} (htensor : tensor.Valid)
    (h : tensor.toPacked platform = .ok other) : other.Valid := by
  rcases toPacked_eq_ok_iff.mp h with ⟨-, rfl⟩ | ⟨-, blank, hblank, hcopy⟩
  · exact htensor
  · have hlayout := addressable_packed htensor.addressable.size_lt tensor.layout.order tensor.dtype
    exact ((fills_copyFrom platform tensor).written hcopy).valid (valid_zeros hlayout hblank)

end Tensor

/-! ## Invocations -/

namespace Invocation

variable {invocation : Invocation} {slot : Nat} {tensor left : Tensor}

/-- All arrays of an invocation: the inputs and the outputs that are bound. -/
def tensors (invocation : Invocation) : List Tensor :=
  invocation.inputs ++ invocation.outputs.filterMap id

theorem mem_tensors :
    tensor ∈ invocation.tensors ↔
      tensor ∈ invocation.inputs ∨ some tensor ∈ invocation.outputs := by
  simp [tensors]

theorem mem_tensors_of_output? (h : invocation.output? slot = some tensor) :
    tensor ∈ invocation.tensors := by
  rw [mem_tensors]
  unfold output? at h
  split at h
  · exact .inl (List.mem_of_getElem? h)
  · exact .inr (List.mem_of_getElem? (Option.join_eq_some_iff.mp h))

/-- Binding an output adds no other array. -/
theorem mem_tensors_bindOutput (h : tensor ∈ (invocation.bindOutput slot left).tensors) :
    tensor = left ∨ tensor ∈ invocation.tensors := by
  rw [mem_tensors] at h ⊢
  rcases h with hinput | houtput
  · exact .inr (.inl hinput)
  · rcases List.mem_or_eq_of_mem_set houtput with hpadded | heq
    · rcases List.mem_append.mp hpadded with hbefore | hnew
      · exact .inr (.inr hbefore)
      · cases List.eq_of_mem_replicate hnew
    · exact .inl (Option.some.inj heq)

/-- Replacing an output adds no other array. -/
theorem mem_tensors_replaceOutput (h : tensor ∈ (invocation.replaceOutput slot left).tensors) :
    tensor = left ∨ tensor ∈ invocation.tensors := by
  unfold replaceOutput at h
  rw [mem_tensors] at h ⊢
  split at h
  · rcases h with hinput | houtput
    · rcases List.mem_or_eq_of_mem_set hinput with hbefore | heq
      · exact .inr (.inl hbefore)
      · exact .inl heq
    · exact .inr (.inr houtput)
  · rcases h with hinput | houtput
    · exact .inr (.inl hinput)
    · rcases List.mem_or_eq_of_mem_set houtput with hbefore | heq
      · exact .inr (.inr hbefore)
      · exact .inl (Option.some.inj heq)

end Invocation

/-! ## The built-in kernels -/

namespace Kernel

variable {workers : Workers} {opcode : Nat} {invocation after : Invocation}

/-- A successful transfer writes the first output, or does nothing in place. -/
theorem written_of_transfer {fill : Workers → Tensor → Update Tensor}
    (hfill : ∀ workers source, Tensor.Fills (fill workers source))
    (h : transfer fill workers opcode invocation = .ok () after) :
    ∃ tensor left, invocation.output? 0 = some tensor ∧ (left = tensor ∨ tensor.Written left) ∧
      after = invocation.replaceOutput 0 left := by
  unfold transfer at h
  split at h
  · cases h
  · rename_i tensor hpair
    cases h
    have houtput := Invocation.output?_of_slotPair hpair
    exact ⟨tensor, tensor, houtput, .inl rfl, (Invocation.replaceOutput_self houtput).symm⟩
  · obtain ⟨tensor, left, houtput, hleft, hafter⟩ := Invocation.exists_of_updateOutput h
    exact ⟨tensor, left, houtput, .inr ((hfill workers _).written hleft), hafter⟩

/-- A successful reduction has written the first output, or nothing. -/
theorem written_of_reduceWith {input output : DType} {β : Type}
    {strategy : Strategy (Scalar input) β (Scalar output)}
    (h : reduceWith strategy workers opcode invocation = .ok () after) :
    ∃ tensor left, invocation.output? 0 = some tensor ∧ (left = tensor ∨ tensor.Written left) ∧
      after = invocation.replaceOutput 0 left := by
  rcases reduceWith_cases strategy workers opcode invocation with
    ⟨cause, hfails⟩ | hconverts | ⟨results, hwrites⟩
  · rw [hfails] at h
    cases h
  · rw [hconverts] at h
    exact written_of_transfer (fun _ ↦ Tensor.fills_convertInto _ input output) h
  · rw [hwrites] at h
    obtain ⟨tensor, left, houtput, hleft, hafter⟩ := Invocation.exists_of_updateOutput h
    exact ⟨tensor, left, houtput, .inr ⟨_, _, hleft⟩, hafter⟩

/-- A built-in kernel that succeeds has written the first output, or nothing. -/
theorem IsBuiltin.written {input output : DType} {kernel : Kernel}
    (hkernel : IsBuiltin input output kernel)
    (h : kernel workers opcode invocation = .ok () after) :
    ∃ tensor left, invocation.output? 0 = some tensor ∧ (left = tensor ∨ tensor.Written left) ∧
      after = invocation.replaceOutput 0 left := by
  rcases hkernel.eq_transfer_or_reduces with ⟨fill, hfill, rfl⟩ | hreduces
  · exact written_of_transfer hfill h
  · rcases hreduces workers opcode with ⟨cause, hfails⟩ | ⟨_, strategy, heq⟩
    · rw [hfails] at h
      cases h
    · rw [heq] at h
      exact written_of_reduceWith h

/-- A built-in kernel, successful or not, leaves valid arrays. -/
theorem IsBuiltin.valid_after {input output : DType} {kernel : Kernel}
    (hkernel : IsBuiltin input output kernel) (h : ∀ tensor ∈ invocation.tensors, tensor.Valid) :
    ∀ tensor ∈ (Update.after (kernel workers opcode) invocation).tensors, tensor.Valid := by
  intro tensor htensor
  unfold Update.after at htensor
  cases hresult : kernel workers opcode invocation with
  | error error left =>
      rw [hresult] at htensor
      obtain rfl := hkernel.atomic workers opcode invocation error left hresult
      exact h tensor htensor
  | ok _ after =>
      rw [hresult] at htensor
      obtain ⟨before, left, hbefore, hwritten, rfl⟩ := hkernel.written hresult
      have hvalid := h before (Invocation.mem_tensors_of_output? hbefore)
      rcases Invocation.mem_tensors_replaceOutput htensor with rfl | hother
      · rcases hwritten with rfl | hwritten
        · exact hvalid
        · exact hwritten.valid hvalid
      · exact h tensor hother

end Kernel

namespace Executor

variable {platform : Platform} {workers : Workers} {opcode : Nat} {invocation : Invocation}

/-- For one output, at most one array is made. -/
theorem freshOutputs_cases {layout : Layout} {fresh : List (Nat × Tensor)}
    (h : freshOutputs platform invocation [layout] = .ok fresh) :
    fresh = [] ∨ ∃ tensor, Tensor.zeros platform layout = .ok tensor ∧ fresh = [(0, tensor)] := by
  cases hplace : invocation.inPlace with
  | true =>
      rw [freshOutputs, if_pos hplace] at h
      cases h
      exact .inl rfl
  | false =>
      cases hbound : invocation.boundOutput? 0 with
      | none => exact .inr (freshOutputs_singleton hplace hbound h)
      | some bound =>
          simp only [freshOutputs, hplace, allocate, hbound, Bool.false_eq_true, if_false] at h
          cases h
          exact .inl rfl

/-- A run of a built-in operation, successful or not, leaves valid arrays. -/
theorem valid_after_run (hlimit : workers.platform.bufferLimit < Size.largest)
    (h : ∀ tensor ∈ invocation.tensors, tensor.Valid) :
    ∀ tensor ∈ (Update.after ((Executor.mk (.builtin platform) workers).run opcode)
      invocation).tensors, tensor.Valid := by
  cases hprepare : (Executor.mk (.builtin platform) workers).prepare opcode invocation with
  | error failure =>
      simp only [Update.after, run, hprepare]
      exact h
  | ok prepared =>
      obtain ⟨kernel, fresh⟩ := prepared
      obtain ⟨operation, input, layouts, output, hfound⟩ := prepare_eq_ok_iff.mp hprepare
      obtain ⟨⟨extents, order, dtype, rfl⟩, hkernel⟩ := hfound.of_builtin
      -- The arrays that are made for the run are valid as well.
      have hbound : ∀ tensor ∈ (bindAll invocation fresh).tensors, tensor.Valid := by
        intro tensor htensor
        rcases freshOutputs_cases hfound.fresh_eq with rfl | ⟨blank, hzeros, rfl⟩
        · exact h tensor htensor
        · rcases Invocation.mem_tensors_bindOutput htensor with rfl | hbefore
          · exact Tensor.valid_zeros_packed hlimit hzeros
          · exact h tensor hbefore
      have hafter : ∀ tensor ∈ (Update.after (kernel workers opcode)
          (bindAll invocation fresh)).tensors, tensor.Valid := hkernel.valid_after hbound
      rw [← Update.after_raising] at hafter
      simp only [Update.after, run, hprepare] at hafter ⊢
      exact hafter

/-- A kernel that is run without checks, successful or not, leaves valid arrays too. -/
theorem valid_after_runKernel {input output : DType}
    (h : ∀ tensor ∈ invocation.tensors, tensor.Valid) :
    ∀ tensor ∈ (Update.after ((Executor.mk (.builtin platform) workers).runKernel opcode input
      output) invocation).tensors, tensor.Valid := by
  rcases runKernel_cases ⟨.builtin platform, workers⟩ opcode input output invocation with
    ⟨error, hfails⟩ | ⟨kernel, hfound, hruns⟩
  · simp only [Update.after, hfails]
    exact h
  · obtain ⟨_, _, _, hkernel⟩ := kernelFor_eq_ok_iff.mp hfound
    have hafter : ∀ tensor ∈ (Update.after (kernel workers opcode) invocation).tensors,
        tensor.Valid := (Registry.isBuiltin_of_kernel? hkernel).valid_after h
    simp only [Update.after, hruns] at hafter ⊢
    exact hafter

end Executor

/-! ## Reachable layouts and arrays -/

/-- A layout that a program can have: one that was accepted with given strides, one without gaps
whose elements can be counted, or one that was derived from such a layout. -/
inductive Layout.Reachable : Layout → Prop where
  | strided {extents strides : List Nat} {order : Order} {dtype : DType} {layout : Layout}
      (h : Layout.strided extents strides order dtype = .ok layout) : Reachable layout
  | packed {extents : List Nat} (h : (Size.count? extents).isSome) (order : Order)
      (dtype : DType) : Reachable (.packed extents order dtype)
  | transpose {layout other : Layout} {i j : Nat} (hlayout : Reachable layout)
      (h : layout.transpose i j = .ok other) : Reachable other
  | broadcastTo {layout other : Layout} {target : List Nat} (hlayout : Reachable layout)
      (h : layout.broadcastTo target = .ok other) : Reachable other
  | withDType {layout : Layout} (hlayout : Reachable layout) (dtype : DType) :
      Reachable (layout.withDType dtype)

theorem Layout.Reachable.addressable {layout : Layout} (h : layout.Reachable) :
    layout.Addressable := by
  induction h with
  | strided h => exact addressable_of_strided h
  | packed h order dtype =>
      obtain ⟨count, hcount⟩ := Option.isSome_iff_exists.mp h
      obtain ⟨hlimit, rfl⟩ := eq_volume_of_count? hcount
      exact addressable_packed hlimit order dtype
  | transpose _ h ih => exact ih.of_transpose h
  | broadcastTo _ h ih => exact ih.of_broadcastTo h
  | withDType _ dtype ih => exact ih.withDType dtype

namespace Tensor

/-- An array that a program can have: one that was made from a reachable layout or from elements,
one that reads or copies such an array, one that was written to, successfully or not, or one that an
invocation holds after a built-in operation was run on such arrays, successfully or not, on a
machine whose buffers are smaller than the address space. -/
inductive Reachable : Tensor → Prop where
  | zeros {platform : Platform} {layout : Layout} {tensor : Tensor} (hlayout : layout.Reachable)
      (h : Tensor.zeros platform layout = .ok tensor) : Reachable tensor
  | ofList {platform : Platform} {dtype : DType} {values : List (Scalar dtype)}
      {extents : List Nat} {tensor : Tensor} (hcount : (Size.count? extents).isSome)
      (h : Tensor.ofList platform values extents = .ok tensor) : Reachable tensor
  | scalar {platform : Platform} {dtype : DType} {value : Scalar dtype} {tensor : Tensor}
      (h : Tensor.scalar platform value = .ok tensor) : Reachable tensor
  | withLayout {tensor other : Tensor} {layout : Layout} (htensor : Reachable tensor)
      (hlayout : layout.Reachable) (h : tensor.withLayout layout = .ok other) : Reachable other
  | transposed {tensor other : Tensor} {i j : Nat} (htensor : Reachable tensor)
      (h : tensor.transposed i j = .ok other) : Reachable other
  | toPacked {platform : Platform} {tensor other : Tensor} (htensor : Reachable tensor)
      (h : tensor.toPacked platform = .ok other) : Reachable other
  | write {tensor : Tensor} {dtype : DType} (values : List (Scalar dtype))
      (htensor : Reachable tensor) : Reachable (Update.after (Tensor.write values) tensor)
  | setCell {tensor : Tensor} {dtype : DType} (offset : Nat) (value : Scalar dtype)
      (htensor : Reachable tensor) :
      Reachable (Update.after (Tensor.setCell offset value) tensor)
  | run {platform : Platform} {workers : Workers} {opcode : Nat} {invocation : Invocation}
      {tensor : Tensor} (hlimit : workers.platform.bufferLimit < Size.largest)
      (h : ∀ held ∈ invocation.tensors, Reachable held)
      (htensor : tensor ∈ (Update.after ((Executor.mk (.builtin platform) workers).run opcode)
        invocation).tensors) : Reachable tensor
  | runKernel {platform : Platform} {workers : Workers} {opcode : Nat} {input output : DType}
      {invocation : Invocation} {tensor : Tensor}
      (h : ∀ held ∈ invocation.tensors, Reachable held)
      (htensor : tensor ∈ (Update.after ((Executor.mk (.builtin platform) workers).runKernel opcode
        input output) invocation).tensors) : Reachable tensor

/-- Every reachable array is valid. -/
theorem Reachable.valid {tensor : Tensor} (h : tensor.Reachable) : tensor.Valid := by
  induction h with
  | zeros hlayout h => exact valid_zeros hlayout.addressable h
  | ofList hcount h =>
      obtain ⟨count, hcount⟩ := Option.isSome_iff_exists.mp hcount
      obtain ⟨hlimit, rfl⟩ := eq_volume_of_count? hcount
      exact valid_ofList hlimit h
  | scalar h => exact valid_ofList (by decide) h
  | withLayout _ hlayout h ih => exact ih.of_withLayout hlayout.addressable h
  | transposed _ h ih => exact ih.of_transposed h
  | toPacked _ h ih => exact ih.of_toPacked h
  | write values _ ih => exact ih.after_write values
  | setCell offset value _ ih => exact ih.after_setCell offset value
  | run hlimit _ htensor ih => exact Executor.valid_after_run hlimit ih _ htensor
  | runKernel _ htensor ih => exact Executor.valid_after_runKernel ih _ htensor

/-- The type of the buffer of a reachable array is that of its layout, and the buffer has the cells
that the layout needs. Whatever lists the elements or writes them stays within the buffer, also if
it goes through the bytes of truth values, or through the first cells of an array without gaps. So
does the engine along every split of the axes, however the work is divided, and its results depend
on no other cell than those it reads. -/
theorem Reachable.reads_within {tensor : Tensor} (h : tensor.Reachable) :
    tensor.storage.dtype = tensor.dtype ∧
      tensor.layout.requiredCells ≤ tensor.storage.size ∧
      (∀ offset ∈ tensor.layout.offsets,
        offset < tensor.storage.size ∧ offset < tensor.storage.toBytes.length) ∧
      (tensor.layout.isPacked →
        tensor.layout.offsets = List.range tensor.size ∧ tensor.size ≤ tensor.storage.size) ∧
      ∀ axes split, tensor.layout.splitAlong axes = .ok split → ∀ workers requested,
        (∀ offset ∈ split.reads workers requested tensor.layout, offset < tensor.storage.size) ∧
        ∀ (β γ : Type) (strategy : Strategy (Scalar tensor.storage.dtype) β γ) others,
          (∀ offset ∈ split.reads workers requested tensor.layout,
            tensor.storage.cells[offset]? = others[offset]?) →
          reduceAlong workers strategy tensor.storage.cells tensor.layout requested split =
            reduceAlong workers strategy others tensor.layout requested split := by
  have hvalid := h.valid
  have hinside : ∀ offset ∈ tensor.layout.offsets, offset < tensor.storage.size :=
    fun _ ↦ hvalid.offset_lt
  refine ⟨hvalid.dtype_eq, hvalid.requiredCells_le, fun offset hoffset ↦ ?_, fun hpacked ↦ ?_,
    fun axes split hsplit workers requested ↦ ⟨fun offset hoffset ↦ ?_, ?_⟩⟩
  · rw [Storage.length_toBytes]
    exact ⟨hinside offset hoffset,
      (hinside offset hoffset).trans_le tensor.storage.size_le_byteSize⟩
  · have hoffsets := hvalid.addressable.offsets_of_isPacked hpacked
    refine ⟨hoffsets, Nat.not_lt.mp fun hlt ↦ ?_⟩
    -- Otherwise the first cell behind the buffer would belong to an element.
    have hmem : tensor.storage.size ∈ tensor.layout.offsets := by
      rw [hoffsets]
      exact List.mem_range.mpr hlt
    exact absurd (hinside _ hmem) (Nat.lt_irrefl _)
  · have hperm := hvalid.addressable.perm_reads hsplit workers requested
    exact hinside offset (hperm.mem_iff.mp hoffset)
  · intro β γ strategy others hothers
    exact reduceAlong_eq_of_reads hothers strategy

/-- A layout whose rows are the same two cells, with a gap between them. -/
def repeatedRows : Layout :=
  make [2, 2] [0, 2] .rowMajor .i8

/-- The columns of the layout. -/
def repeatedColumns : AxisSplit :=
  .slices ⟨make [2] [0] .rowMajor .i8, [0, 2], [2]⟩

/-- Two workers read a repeated row of an array that has been read through another layout. -/
theorem Reachable.reads_within_repeated :
    Reachable ⟨repeatedRows, ⟨.i8, #[⟨1⟩, ⟨2⟩, ⟨3⟩]⟩⟩ ∧
      repeatedRows.splitAlong [0] = .ok repeatedColumns ∧
      repeatedColumns.reads ⟨.small, ⟨some 2, 1⟩, 2⟩ none repeatedRows = [0, 0, 2, 2] ∧
      ∀ offset ∈ [0, 0, 2, 2], offset < 3 := by
  have hmade : Tensor.ofList .small ([⟨1⟩, ⟨2⟩, ⟨3⟩] : List (Scalar .i8)) [3] =
      .ok ⟨packed [3] .rowMajor .i8, ⟨.i8, #[⟨1⟩, ⟨2⟩, ⟨3⟩]⟩⟩ := rfl
  have hlist : Reachable ⟨packed [3] .rowMajor .i8, ⟨.i8, #[⟨1⟩, ⟨2⟩, ⟨3⟩]⟩⟩ := .ofList rfl hmade
  have hlayout : strided [2, 2] [0, 2] .rowMajor .i8 = .ok repeatedRows := rfl
  have hreachable : Reachable ⟨repeatedRows, ⟨.i8, #[⟨1⟩, ⟨2⟩, ⟨3⟩]⟩⟩ :=
    .withLayout hlist (.strided hlayout) rfl
  have hsplit : repeatedRows.splitAlong [0] = .ok repeatedColumns := rfl
  refine ⟨hreachable, hsplit, rfl, ?_⟩
  exact (hreachable.reads_within.2.2.2.2 [0] _ hsplit ⟨.small, ⟨some 2, 1⟩, 2⟩ none).1

end Tensor

end ArrayEngine
