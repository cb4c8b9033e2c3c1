import ArrayEngine.Proofs.Operation.Builtin

/-!
# What a failed run leaves behind

A change is atomic if it leaves the state as it is whenever it fails. All built-in kernels are
atomic, and so are those of every registry to which only atomic kernels are added
(`Registry.Reachable.atomic`). A run is not atomic even then: outputs that are not bound are
allocated and bound before the kernel runs, and they stay bound if the kernel fails. `run_failed`
says that this is the only change, and just when it happens. Only an operation without outputs can
make a run panic (`exists_of_run_panicked`).
-/

namespace ArrayEngine

open Layout

/-! ## Atomic changes -/

/-- The change leaves the state as it is if it fails. -/
def Update.Atomic {σ : Type} (update : Update σ) : Prop :=
  ∀ state error left, update state = .error error left → left = state

/-- An atomic change succeeds, or it leaves the state as it is. -/
theorem Update.Atomic.after_cases {σ : Type} {update : Update σ} (h : update.Atomic) (state : σ) :
    update state = .ok () (after update state) ∨
      (∃ error, update state = .error error state) ∧ after update state = state := by
  unfold Update.after
  cases hresult : update state with
  | ok _ left => exact .inl rfl
  | error error left =>
      have hleft := h state error left hresult
      exact .inr ⟨⟨error, by rw [hleft]⟩, hleft⟩

/-- The kernel leaves the invocation as it is if it fails. -/
def Kernel.Atomic (kernel : Kernel) : Prop :=
  ∀ workers opcode, Update.Atomic (kernel workers opcode)

/-- Every kernel of the registry leaves the invocation as it is if it fails. -/
def Registry.Atomic (registry : Registry) : Prop :=
  ∀ opcode input output kernel,
    registry.kernel? opcode input output = some kernel → kernel.Atomic

/-- A registry that was made, without operations or with the built-in ones, and to which operations
and kernels of some kind were added one after another, some of them perhaps in vain. -/
inductive Registry.Reachable (Allowed : Kernel → Prop) : Registry → Prop where
  | empty : Reachable Allowed .empty
  | builtin (platform : Platform) : Reachable Allowed (.builtin platform)
  | register {registry : Registry} (operation : Operation) (h : Reachable Allowed registry) :
      Reachable Allowed (Update.after (Registry.register operation) registry)
  | registerKernel {registry : Registry} (opcode : Nat) (input output : DType) {kernel : Kernel}
      (hkernel : Allowed kernel) (h : Reachable Allowed registry) :
      Reachable Allowed (Update.after (registerKernel opcode input output kernel) registry)

namespace Tensor

/-- A write is refused before it changes a cell. -/
theorem atomic_write {dtype : DType} (values : List (Scalar dtype)) :
    Update.Atomic (write values) := by
  intro tensor error left h
  unfold write at h
  split at h
  · cases h
    rfl
  · split at h
    · cases h
      rfl
    · cases h

/-- A change that fills an array is refused before it changes a cell. -/
theorem Fills.atomic {fill : Update Tensor} (h : Fills fill) : Update.Atomic fill := by
  rcases h with ⟨dtype, values, rfl⟩ | ⟨cause, hrefuses⟩
  · exact atomic_write values
  · intro tensor error left hfails
    rw [hrefuses] at hfails
    cases hfails
    rfl

end Tensor

namespace Invocation

variable {invocation : Invocation} {slot : Nat} {tensor : Tensor}

/-- Replacing the output of a slot by itself changes nothing. -/
theorem replaceOutput_self (h : invocation.output? slot = some tensor) :
    invocation.replaceOutput slot tensor = invocation := by
  unfold output? at h
  unfold replaceOutput
  split at h
  · rename_i hplace
    obtain ⟨hslot, rfl⟩ := List.getElem?_eq_some_iff.mp h
    rw [if_pos hplace, List.set_getElem_self]
  · rename_i hplace
    obtain ⟨hslot, hbound⟩ := List.getElem?_eq_some_iff.mp (Option.join_eq_some_iff.mp h)
    rw [if_neg hplace, ← hbound, List.set_getElem_self]

/-- A failed change of an output leaves the invocation as it is, if it does so with the output. -/
theorem atomic_updateOutput {update : Update Tensor} (hupdate : Update.Atomic update) :
    Update.Atomic (updateOutput slot update) := by
  intro invocation error left h
  unfold updateOutput at h
  split at h
  · cases h
    rfl
  · rename_i tensor htensor
    cases hresult : update tensor with
    | ok _ changed => simp [hresult] at h
    | error cause changed =>
        rw [hresult] at h
        cases h
        rw [hupdate tensor error changed hresult]
        exact replaceOutput_self htensor

end Invocation

/-! ## The built-in kernels -/

namespace Kernel

theorem atomic_transfer {fill : Workers → Tensor → Update Tensor}
    (hfill : ∀ workers source, Tensor.Fills (fill workers source)) : Atomic (transfer fill) := by
  intro workers opcode invocation error left h
  unfold transfer at h
  split at h
  · cases h
    rfl
  · cases h
  · exact Invocation.atomic_updateOutput (hfill workers _).atomic invocation error left h

theorem atomic_reduceWith {input output : DType} {β : Type}
    (strategy : Strategy (Scalar input) β (Scalar output)) : Atomic (reduceWith strategy) := by
  intro workers opcode invocation error left h
  rcases reduceWith_cases strategy workers opcode invocation with
    ⟨cause, hfails⟩ | hconverts | ⟨results, hwrites⟩
  · rw [hfails] at h
    cases h
    rfl
  · rw [hconverts] at h
    exact atomic_transfer (fun workers ↦ Tensor.fills_convertInto workers.platform input output)
      workers opcode invocation error left h
  · rw [hwrites] at h
    exact Invocation.atomic_updateOutput (Tensor.atomic_write results) invocation error left h

theorem IsBuiltin.atomic {input output : DType} {kernel : Kernel}
    (h : IsBuiltin input output kernel) : Atomic kernel := by
  rcases h.eq_transfer_or_reduces with ⟨fill, hfill, rfl⟩ | hreduces
  · exact atomic_transfer hfill
  · intro workers opcode invocation error left hfailed
    rcases hreduces workers opcode with ⟨cause, hfails⟩ | ⟨_, strategy, heq⟩
    · rw [hfails] at hfailed
      cases hfailed
      rfl
    · rw [heq] at hfailed
      exact atomic_reduceWith strategy workers opcode invocation error left hfailed

end Kernel

/-! ## Registries -/

namespace Registry

theorem atomic_builtin (platform : Platform) : Atomic (.builtin platform) :=
  fun _ _ _ _ h ↦ (isBuiltin_of_kernel? h).atomic

section

variable {registry left : Registry} {operation : Operation} {opcode opcode' : Nat}
  {input output input' output' : DType} {kernel kernel' : Kernel}

/-- An operation is added exactly if its opcode and its name are free. -/
theorem register_eq_ok_iff :
    register operation registry = .ok () left ↔
      registry.operation? operation.opcode = none ∧
        registry.opcodeOf? operation.name = none ∧ left = registry.insert operation := by
  unfold register
  cases registry.operation? operation.opcode with
  | some existing => simp
  | none =>
      cases registry.opcodeOf? operation.name with
      | some opcode => simp
      | none => simp [eq_comm]

/-- A kernel is added exactly if the operation exists and allows the types. -/
theorem registerKernel_eq_ok_iff :
    registerKernel opcode input output kernel registry = .ok () left ↔
      ∃ operation, registry.operation? opcode = some operation ∧ operation.allows input output ∧
        left = { registry with
          kernel? := setKernel registry.kernel? opcode input output kernel } := by
  unfold registerKernel
  cases registry.operation? opcode with
  | none => simp
  | some operation =>
      by_cases hallows : operation.allows input output
      · simp only [hallows, if_true, EStateM.Result.ok.injEq, true_and, Option.some.injEq]
        exact ⟨fun hleft ↦ ⟨operation, rfl, hallows, hleft.symm⟩, fun ⟨_, _, _, hleft⟩ ↦ hleft.symm⟩
      · simp [hallows]

theorem atomic_register (operation : Operation) : Update.Atomic (register operation) := by
  intro registry error left h
  unfold register at h
  split at h
  · cases h
    rfl
  · split at h
    · cases h
      rfl
    · cases h

theorem atomic_registerKernel (opcode : Nat) (input output : DType) (kernel : Kernel) :
    Update.Atomic (registerKernel opcode input output kernel) := by
  intro registry error left h
  unfold registerKernel at h
  split at h
  · cases h
    rfl
  · split at h
    · cases h
    · cases h
      rfl

/-- Adding an operation, or failing to, leaves the kernels as they are. -/
theorem kernel?_after_register (operation : Operation) (registry : Registry) :
    (Update.after (register operation) registry).kernel? = registry.kernel? := by
  rcases (atomic_register operation).after_cases registry with hok | ⟨_, hsame⟩
  · obtain ⟨_, _, hleft⟩ := register_eq_ok_iff.mp hok
    rw [hleft]
    rfl
  · rw [hsame]

/-- After a kernel was added, perhaps in vain, each kernel is the new one or was there before. -/
theorem kernel?_after_registerKernel
    (h : (Update.after (registerKernel opcode input output kernel) registry).kernel? opcode' input'
      output' = some kernel') :
    kernel' = kernel ∨ registry.kernel? opcode' input' output' = some kernel' := by
  rcases (atomic_registerKernel opcode input output kernel).after_cases registry with
    hok | ⟨_, hsame⟩
  · obtain ⟨_, _, _, hleft⟩ := registerKernel_eq_ok_iff.mp hok
    rw [hleft] at h
    simp only [setKernel] at h
    split at h
    · cases h
      exact .inl rfl
    · exact .inr h
  · rw [hsame] at h
    exact .inr h

end

/-- If only atomic kernels are added to a registry, all its kernels are atomic. -/
theorem Reachable.atomic {registry : Registry} (h : registry.Reachable Kernel.Atomic) :
    registry.Atomic := by
  induction h with
  | empty =>
      intro opcode input output kernel hkernel
      cases hkernel
  | builtin platform => exact atomic_builtin platform
  | register operation _ ih =>
      intro opcode input output kernel hkernel
      rw [kernel?_after_register] at hkernel
      exact ih opcode input output kernel hkernel
  | registerKernel opcode input output hatomic _ ih =>
      intro opcode' input' output' kernel' hkernel
      rcases kernel?_after_registerKernel hkernel with rfl | hbefore
      · exact hatomic
      · exact ih opcode' input' output' kernel' hbefore

end Registry

/-! ## Outputs that are bound before a run -/

/-- Binding an output leaves the other slots as they are. -/
theorem Invocation.boundOutput?_bindOutput_of_ne {slot other : Nat} (h : other ≠ slot)
    (invocation : Invocation) (tensor : Tensor) :
    (invocation.bindOutput slot tensor).boundOutput? other = invocation.boundOutput? other := by
  rw [boundOutput?, boundOutput?, bindOutput, List.getElem?_set_ne h.symm]
  -- The places that are filled up have no output.
  by_cases hother : other < invocation.outputs.length
  · rw [List.getElem?_append_left hother]
  · have hbehind : invocation.outputs.length ≤ other := Nat.not_lt.mp hother
    rw [List.getElem?_append_right hbehind, List.getElem?_eq_none hbehind, List.getElem?_replicate]
    split <;> rfl

namespace Executor

variable {invocation : Invocation} {outputs : List (Nat × Tensor)} {slot : Nat} {tensor : Tensor}

theorem boundOutput?_bindAll_of_notMem (h : slot ∉ outputs.map Prod.fst) :
    (bindAll invocation outputs).boundOutput? slot = invocation.boundOutput? slot := by
  induction outputs generalizing invocation with
  | nil => rfl
  | cons output rest ih =>
      obtain ⟨hne, hrest⟩ := List.ne_and_not_mem_of_not_mem_cons h
      show (bindAll (invocation.bindOutput output.1 output.2) rest).boundOutput? slot = _
      rw [ih hrest, Invocation.boundOutput?_bindOutput_of_ne hne]

/-- If no slot occurs twice, each array ends up in its slot. -/
theorem boundOutput?_bindAll_of_mem (hnodup : (outputs.map Prod.fst).Nodup)
    (h : (slot, tensor) ∈ outputs) :
    (bindAll invocation outputs).boundOutput? slot = some tensor := by
  induction outputs generalizing invocation with
  | nil => cases h
  | cons output rest ih =>
      rw [List.map_cons, List.nodup_cons] at hnodup
      show (bindAll (invocation.bindOutput output.1 output.2) rest).boundOutput? slot = _
      rcases List.mem_cons.mp h with rfl | hrest
      · rw [boundOutput?_bindAll_of_notMem hnodup.1, Invocation.boundOutput?_bindOutput]
      · exact ih hnodup.2 hrest

/-- What is allocated for `count` slots from `slot` on: one blank array for each of them that has no
output yet. -/
structure Allocated (platform : Platform) (invocation : Invocation) (slot count : Nat)
    (fresh : List (Nat × Tensor)) : Prop where
  nodup : (fresh.map Prod.fst).Nodup
  mem_iff {other : Nat} : other ∈ fresh.map Prod.fst ↔
    slot ≤ other ∧ other < slot + count ∧ invocation.boundOutput? other = none
  blank {output : Nat × Tensor} :
    output ∈ fresh → ∃ layout, Tensor.zeros platform layout = .ok output.2

section

variable {platform : Platform} {count : Nat} {fresh : List (Nat × Tensor)}

/-- Nothing is allocated for a slot with an output. -/
theorem Allocated.of_bound {bound : Tensor} (hbound : invocation.boundOutput? slot = some bound)
    (h : Allocated platform invocation (slot + 1) count fresh) :
    Allocated platform invocation slot (count + 1) fresh := by
  refine ⟨h.nodup, fun {other} ↦ ?_, h.blank⟩
  have hne : invocation.boundOutput? other = none → other ≠ slot := by
    intro hnone heq
    rw [heq, hbound] at hnone
    cases hnone
  rw [h.mem_iff]
  grind

/-- A slot without an output gets a blank array. -/
theorem Allocated.cons {layout : Layout} (hfree : invocation.boundOutput? slot = none)
    (hzeros : Tensor.zeros platform layout = .ok tensor)
    (h : Allocated platform invocation (slot + 1) count fresh) :
    Allocated platform invocation slot (count + 1) ((slot, tensor) :: fresh) := by
  have hfirst : slot ∉ fresh.map Prod.fst := by
    intro hmem
    have hle := (h.mem_iff.mp hmem).1
    omega
  refine ⟨List.nodup_cons.mpr ⟨hfirst, h.nodup⟩, fun {other} ↦ ?_, fun hmem ↦ ?_⟩
  · rw [List.map_cons, List.mem_cons, h.mem_iff]
    grind
  · rcases List.mem_cons.mp hmem with rfl | hmem
    · exact ⟨layout, hzeros⟩
    · exact h.blank hmem

end

/-- Allocating for each slot that has no output gives just these arrays. -/
theorem allocated_of_allocate {platform : Platform} {layouts : List Layout}
    {fresh : List (Nat × Tensor)} (h : allocate platform invocation slot layouts = .ok fresh) :
    Allocated platform invocation slot layouts.length fresh := by
  induction layouts generalizing slot fresh with
  | nil =>
      cases h
      refine ⟨.nil, fun {other} ↦ ⟨nofun, ?_⟩, nofun⟩
      intro hslot
      obtain ⟨hle, hlt, _⟩ := hslot
      exact absurd hlt (Nat.not_lt.mpr hle)
  | cons layout rest ih =>
      unfold allocate at h
      rw [List.length_cons]
      cases hbound : invocation.boundOutput? slot with
      | some bound =>
          simp only [hbound] at h
          exact (ih h).of_bound hbound
      | none =>
          simp only [hbound] at h
          obtain ⟨tensor, hzeros, hothers⟩ := bind_eq_ok.mp h
          obtain ⟨others, hallocate, heq⟩ := bind_eq_ok.mp hothers
          cases heq
          exact (ih hallocate).cons hbound hzeros

namespace Allocated

variable {platform : Platform} {count : Nat} {fresh : List (Nat × Tensor)}

/-- An output that was bound before stays as it is. -/
theorem boundOutput?_bindAll (h : Allocated platform invocation 0 count fresh)
    (hbound : invocation.boundOutput? slot = some tensor) :
    (bindAll invocation fresh).boundOutput? slot = some tensor := by
  have hother : slot ∉ fresh.map Prod.fst := by
    intro hmem
    obtain ⟨_, _, hnone⟩ := h.mem_iff.mp hmem
    rw [hbound] at hnone
    cases hnone
  rw [boundOutput?_bindAll_of_notMem hother, hbound]

/-- An output that was not bound before is blank. -/
theorem exists_zeros (h : Allocated platform invocation 0 count fresh)
    (hbefore : invocation.boundOutput? slot = none)
    (hafter : (bindAll invocation fresh).boundOutput? slot = some tensor) :
    ∃ layout, Tensor.zeros platform layout = .ok tensor := by
  by_cases hmem : slot ∈ fresh.map Prod.fst
  · obtain ⟨⟨found, blank⟩, houtput, rfl⟩ := List.mem_map.mp hmem
    obtain rfl : blank = tensor :=
      Option.some.inj ((boundOutput?_bindAll_of_mem h.nodup houtput).symm.trans hafter)
    exact h.blank houtput
  · rw [boundOutput?_bindAll_of_notMem hmem, hbefore] at hafter
    cases hafter

/-- Nothing changes exactly if every slot had an output. -/
theorem bindAll_eq_self_iff (h : Allocated platform invocation 0 count fresh) :
    bindAll invocation fresh = invocation ↔
      ∀ slot < count, (invocation.boundOutput? slot).isSome := by
  constructor
  · intro hsame slot hslot
    cases hbound : invocation.boundOutput? slot with
    | some bound => rfl
    | none =>
        have hmem := h.mem_iff.mpr ⟨Nat.zero_le slot, by omega, hbound⟩
        obtain ⟨⟨found, blank⟩, houtput, rfl⟩ := List.mem_map.mp hmem
        have hafter : (bindAll invocation fresh).boundOutput? found = some blank :=
          boundOutput?_bindAll_of_mem h.nodup houtput
        rw [hsame, hbound] at hafter
        cases hafter
  · intro hbound
    cases fresh with
    | nil => rfl
    | cons output rest =>
        obtain ⟨_, hslot, hnone⟩ := h.mem_iff.mp (List.mem_cons_self ..)
        have hsome := hbound output.1 (by omega)
        rw [hnone] at hsome
        cases hsome

end Allocated

/-! ## Runs -/

variable {executor : Executor} {opcode : Nat} {left : Invocation} {failure : Failure}

/-- A run fails in its checks, with the invocation as it was, or in the kernel that they have
chosen. -/
theorem run_eq_error_iff :
    executor.run opcode invocation = .error failure left ↔
      executor.prepare opcode invocation = .error failure ∧ left = invocation ∨
      ∃ kernel fresh error, executor.prepare opcode invocation = .ok (kernel, fresh) ∧
        failure = .raised error ∧
        kernel executor.workers opcode (bindAll invocation fresh) = .error error left := by
  rw [run]
  cases executor.prepare opcode invocation with
  | error cause => simp [eq_comm]
  | ok prepared =>
      obtain ⟨kernel, fresh⟩ := prepared
      simp

theorem eq_nil_of_firstType_panicked {layouts : List Layout} {panic : Panic}
    (h : firstType layouts = .error panic) : layouts = [] := by
  cases layouts with
  | nil => rfl
  | cons layout rest => cases h

/-- The check of the further inputs panics only if no layout was inferred. -/
theorem eq_nil_of_checkFurtherInputs_panicked {operation : Operation} {layouts : List Layout}
    {inputs : List Tensor} {panic : Panic}
    (h : checkFurtherInputs operation layouts inputs = .error (.panicked panic)) :
    layouts = [] := by
  induction inputs with
  | nil => cases h
  | cons input rest ih =>
      unfold checkFurtherInputs at h
      split at h
      · exact ih h
      · simp only [bind_eq_error, Failure.liftPanic_eq_panicked] at h
        rcases h with hfirst | ⟨_, _, hraised⟩
        · exact eq_nil_of_firstType_panicked hfirst
        · cases hraised

theorem eq_nil_of_outputType_panicked {layouts : List Layout} {panic : Panic}
    (h : outputType invocation layouts = .error panic) : layouts = [] := by
  unfold outputType at h
  split at h
  · exact eq_nil_of_firstType_panicked h
  · split at h
    · cases h
    · exact eq_nil_of_firstType_panicked h

/-- Only a run of an operation without outputs panics. -/
theorem exists_of_run_panicked {panic : Panic}
    (h : executor.run opcode invocation = .error (.panicked panic) left) :
    left = invocation ∧ ∃ operation,
      executor.registry.operation opcode = .ok operation ∧ operation.outputCount = 0 := by
  rcases run_eq_error_iff.mp h with ⟨hchecks, hleft⟩ | ⟨_, _, _, _, hraised, _⟩
  · simp only [prepare, bind_eq_error, Failure.liftError_ne_panicked, Failure.liftError_eq_ok,
      Failure.liftPanic_eq_panicked, false_or] at hchecks
    obtain ⟨operation, hoperation, _, _, _, _, layouts, _, _, hcount, _, _, hchecks⟩ := hchecks
    have hnil : layouts = [] := by
      rcases hchecks with hfurther | ⟨_, _, _, _, houtput | ⟨_, _, _, _, _, _, hdone⟩⟩
      · exact eq_nil_of_checkFurtherInputs_panicked hfurther
      · exact eq_nil_of_outputType_panicked houtput
      · cases hdone
    rw [Error.raiseUnless_eq_ok, hnil] at hcount
    exact ⟨hleft, operation, hoperation, hcount.symm⟩
  · cases hraised

/-- No built-in operation panics. -/
theorem run_builtin_ne_panicked {platform : Platform} {workers : Workers} {panic : Panic} :
    (Executor.mk (.builtin platform) workers).run opcode invocation ≠
      .error (.panicked panic) left := by
  intro h
  obtain ⟨_, operation, hoperation, hcount⟩ := exists_of_run_panicked h
  rcases Registry.exists_of_operation_builtin hoperation with ⟨_, _, rfl⟩ | ⟨_, _, rfl⟩
  · cases hcount
  · cases hcount

/-- Nothing is bound in place; otherwise the slots without an output get one. -/
theorem Prepared.allocated {operation : Operation} {input : Tensor} {layouts : List Layout}
    {output : DType} {kernel : Kernel} {fresh : List (Nat × Tensor)}
    (h : Prepared executor opcode invocation operation input layouts output kernel fresh) :
    if invocation.inPlace then fresh = []
    else Allocated executor.workers.platform invocation 0 operation.outputCount fresh := by
  have hfresh := h.fresh_eq
  unfold freshOutputs at hfresh
  split
  · rename_i hplace
    rw [if_pos hplace] at hfresh
    cases hfresh
    rfl
  · rename_i hplace
    rw [if_neg hplace] at hfresh
    rw [← h.outputCount_eq]
    exact allocated_of_allocate hfresh

/-- A failed run with atomic kernels, whether it raised an error or panicked, keeps the inputs, the
parameters and the outputs that were bound, and binds nothing but blank arrays. It leaves the
invocation as it was exactly if a check failed, or if no output had to be made: in place, or with
every output bound. -/
theorem run_failed (hregistry : executor.registry.Reachable Kernel.Atomic)
    (hfailed : executor.run opcode invocation = .error failure left) :
    (left.inputs = invocation.inputs ∧ left.params = invocation.params ∧
        left.inPlace = invocation.inPlace) ∧
      (∀ slot tensor, invocation.boundOutput? slot = some tensor →
        left.boundOutput? slot = some tensor) ∧
      (∀ slot tensor, invocation.boundOutput? slot = none → left.boundOutput? slot = some tensor →
        ∃ layout, Tensor.zeros executor.workers.platform layout = .ok tensor) ∧
      (left = invocation ↔
        executor.prepare opcode invocation = .error failure ∨ invocation.inPlace ∨
        ∃ operation, executor.registry.operation opcode = .ok operation ∧
          ∀ slot < operation.outputCount, (invocation.boundOutput? slot).isSome) := by
  rcases run_eq_error_iff.mp hfailed with
    ⟨hchecks, rfl⟩ | ⟨kernel, fresh, error, hprepare, rfl, hkernel⟩
  · refine ⟨⟨rfl, rfl, rfl⟩, fun _ _ hbound ↦ hbound, fun slot tensor hnone hsome ↦ ?_, ?_⟩
    · rw [hnone] at hsome
      cases hsome
    · simp [hchecks]
  · obtain ⟨operation, input, layouts, output, hprepared⟩ := prepare_eq_ok_iff.mp hprepare
    obtain ⟨_, _, _, hfound⟩ := kernelFor_eq_ok_iff.mp hprepared.kernel_eq
    -- The kernel is atomic, so that what is left is what was bound for it.
    obtain rfl := hregistry.atomic opcode _ _ kernel hfound _ _ _ error left hkernel
    have hallocated := hprepared.allocated
    obtain ⟨bound, hbound⟩ := exists_bindAll invocation.outputs fresh
    have hleft : bindAll invocation fresh =
        ⟨invocation.inputs, bound, invocation.params, invocation.inPlace⟩ := hbound _ _ _
    refine ⟨by simp [hleft], ?_⟩
    split at hallocated
    · rename_i hplace
      subst hallocated
      refine ⟨fun _ _ hbound ↦ hbound, fun slot tensor hnone hsome ↦ ?_, ?_⟩
      · have hnone' : (bindAll invocation []).boundOutput? slot = none := hnone
        rw [hnone'] at hsome
        cases hsome
      · exact iff_of_true rfl (.inr (.inl hplace))
    · rename_i hplace
      refine ⟨fun _ _ ↦ hallocated.boundOutput?_bindAll, fun _ _ ↦ hallocated.exists_zeros, ?_⟩
      rw [hallocated.bindAll_eq_self_iff, hprepare, hprepared.operation_eq]
      simp [hplace]

/-- The sum of an array without elements along axes that would have too many. -/
def oversizedSum (outputs : List (Option Tensor)) : Invocation :=
  ⟨[⟨packed [0, 2 ^ 40, 2 ^ 40] .rowMajor .i32, ⟨.i32, #[]⟩⟩], outputs,
    ⟨some [1, 2], false, none⟩, false⟩

/-- The axes have too many elements. -/
def oversizedAxes : Failure :=
  .raised (.invalidShape ("extents [1099511627776, 1099511627776] with strides " ++
    "[1099511627776, 1] overflow the address space"))

/-- An array of integers without elements. -/
def noInts : Tensor :=
  ⟨packed [0] .rowMajor .i32, ⟨.i32, #[]⟩⟩

/-- The sum fails in the kernel. The output that was bound before stays as it is. -/
theorem run_failed_bound :
    Executor.small.registry.Reachable Kernel.Atomic ∧
      Executor.small.run Reduction.sum.opcode (oversizedSum [some noInts]) =
        .error oversizedAxes (oversizedSum [some noInts]) := by
  refine ⟨.builtin _, ?hrun⟩
  obtain ⟨left, hrun⟩ : ∃ left,
      Executor.small.run Reduction.sum.opcode (oversizedSum [some noInts]) =
        .error oversizedAxes left := ⟨_, rfl⟩
  -- The only output is bound, so that nothing changes.
  have hleft := (run_failed (.builtin _) hrun).2.2.2.mpr
    (.inr (.inr ⟨Reduction.sum.toOperation, rfl, by decide⟩))
  rw [hleft] at hrun
  exact hrun

/-- The same run without a bound output fails as well, and leaves a blank array bound. -/
theorem run_failed_unbound :
    Executor.small.run Reduction.sum.opcode (oversizedSum []) =
      .error oversizedAxes (oversizedSum [some noInts]) := by
  rfl

end Executor

end ArrayEngine
