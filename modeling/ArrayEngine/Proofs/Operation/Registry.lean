import ArrayEngine.Proofs.Operation.Failure

/-!
# Registries after any calls

A registry is made without operations or with the built-in ones, and then operations and kernels are
added to it in any order, some of them in vain. `Registry.Consistent` is what ties its tables
together: no two operations have one opcode, the table of names leads to just the operations that
have them, and every kernel belongs to an operation that allows its types. One call keeps this
(`Consistent.after_call`), hence so does any number of them. `Registry.lookups_afterCalls` says
what it means for whoever looks something up, and that a kernel is the one that was added last. The
listings are sorted, and what they list is distinct, so that they ascend strictly.
-/

namespace ArrayEngine

/-! ## Lists of operations -/

namespace Operation

variable {operation other : Operation} {operations : List Operation} {opcode : Nat}

/-- No two operations have one opcode. -/
def Distinct (operations : List Operation) : Prop :=
  (operations.map Operation.opcode).Nodup

/-- An operation takes the place of the one with its opcode. -/
theorem Distinct.insert (h : Distinct operations) : Distinct (operation.insert operations) := by
  have hkept : (operations.filter (·.opcode ≠ operation.opcode)).map Operation.opcode |>.Nodup :=
    h.sublist (List.filter_sublist.map _)
  rw [Distinct, Operation.insert, List.map_append]
  refine List.nodup_append.mpr ⟨hkept, List.nodup_singleton _, ?_⟩
  intro opcode hopcode other hother
  obtain ⟨existing, hexisting, rfl⟩ := List.mem_map.mp hopcode
  obtain rfl := List.mem_singleton.mp hother
  exact of_decide_eq_true (List.mem_filter.mp hexisting).2

/-- Behind an insertion, an opcode leads to the new operation or to the one it led to before. -/
theorem find?_insert (operation : Operation) (operations : List Operation) (opcode : Nat) :
    ((operation.insert operations).find? fun other ↦ other.opcode == opcode) =
      if opcode = operation.opcode then some operation
      else operations.find? fun other ↦ other.opcode == opcode := by
  rw [Operation.insert, List.find?_append]
  split
  · rename_i hsame
    subst hsame
    have hnone : ((operations.filter (·.opcode ≠ operation.opcode)).find? fun other ↦
        other.opcode == operation.opcode) = none := by
      simp [List.find?_eq_none]
    rw [hnone]
    simp
  · rename_i hother
    have hkept : ((operations.filter (·.opcode ≠ operation.opcode)).find? fun other ↦
        other.opcode == opcode) = operations.find? fun other ↦ other.opcode == opcode := by
      rw [List.find?_filter]
      congr 1
      funext other
      grind
    have hnew : ([operation].find? fun other ↦ other.opcode == opcode) = none := by
      simpa using fun heq ↦ hother heq.symm
    rw [hkept, hnew, Option.or_none]

/-- Among distinct operations, each is found under its opcode. -/
theorem Distinct.find?_eq_some_iff (h : Distinct operations) :
    (operations.find? fun other ↦ other.opcode == opcode) = some operation ↔
      operation ∈ operations ∧ operation.opcode = opcode := by
  refine ⟨fun hfound ↦ ⟨List.mem_of_find?_eq_some hfound, ?_⟩, ?_⟩
  · simpa using List.find?_some hfound
  · rintro ⟨hmem, rfl⟩
    cases hfound : operations.find? fun other ↦ other.opcode == operation.opcode with
    | none => exact absurd (beq_self_eq_true _) (List.find?_eq_none.mp hfound operation hmem)
    | some found =>
        have hopcode : found.opcode = operation.opcode := by simpa using List.find?_some hfound
        rw [List.inj_on_of_nodup_map h (List.mem_of_find?_eq_some hfound) hmem hopcode]

end Operation

namespace Registry

variable {registry : Registry} {operation : Operation} {opcode : Nat} {input output : DType}
  {kernel : Kernel}

/-! ## Calls -/

/-- A call that adds something to a registry. -/
inductive Call where
  | register (operation : Operation)
  | registerKernel (opcode : Nat) (input output : DType) (kernel : Kernel)

namespace Call

/-- What the call does. -/
def update : Call → Update Registry
  | register operation => Registry.register operation
  | registerKernel opcode input output kernel =>
      Registry.registerKernel opcode input output kernel

theorem atomic_update (call : Call) : Update.Atomic call.update := by
  cases call with
  | register operation => exact atomic_register operation
  | registerKernel opcode input output kernel =>
      exact atomic_registerKernel opcode input output kernel

/-- The key and the kernel that the call adds to a registry, if it is one for a kernel and
succeeds. -/
def added? (call : Call) (registry : Registry) : Option ((Nat × DType × DType) × Kernel) :=
  match call with
  | register _ => none
  | registerKernel opcode input output kernel =>
      match call.update registry with
      | .ok _ _ => some ((opcode, input, output), kernel)
      | .error _ _ => none

end Call

/-- The registry after some calls. -/
def afterCalls (registry : Registry) (calls : List Call) : Registry :=
  calls.foldl (fun registry call ↦ Update.after call.update registry) registry

/-- The kernels that the calls add to a registry, with their keys, the latest first. -/
def addedKernels : Registry → List Call → List ((Nat × DType × DType) × Kernel)
  | _, [] => []
  | registry, call :: rest =>
      addedKernels (Update.after call.update registry) rest ++ (call.added? registry).toList

/-- A call succeeds, or it leaves the registry as it is and adds nothing. -/
theorem Call.after_cases (call : Call) (registry : Registry) :
    call.update registry = .ok () (Update.after call.update registry) ∨
      call.added? registry = none ∧ Update.after call.update registry = registry := by
  rcases call.atomic_update.after_cases registry with hok | ⟨⟨error, hfails⟩, hsame⟩
  · exact .inl hok
  · refine .inr ⟨?_, hsame⟩
    cases call with
    | register operation => rfl
    | registerKernel opcode input output kernel => rw [added?, hfails]

/-! ## Consistent registries -/

theorem operation?_insert (registry : Registry) (operation : Operation) (opcode : Nat) :
    (registry.insert operation).operation? opcode =
      if opcode = operation.opcode then some operation else registry.operation? opcode :=
  Operation.find?_insert operation registry.operations opcode

/-- The tables of a registry belong together. -/
structure Consistent (registry : Registry) : Prop where
  distinct : Operation.Distinct registry.operations
  opcodeOf?_eq_some_iff {name : String} {opcode : Nat} :
    registry.opcodeOf? name = some opcode ↔
      ∃ operation, registry.operation? opcode = some operation ∧ operation.name = name
  exists_allows {opcode : Nat} {input output : DType} {kernel : Kernel} :
    registry.kernel? opcode input output = some kernel →
      ∃ operation, registry.operation? opcode = some operation ∧ operation.allows input output

theorem consistent_empty : Consistent empty where
  distinct := .nil
  opcodeOf?_eq_some_iff := by simp [empty, operation?]
  exists_allows h := by cases h

namespace Consistent

variable (h : registry.Consistent)

include h

/-- An operation with an opcode and a name of its own may be inserted. -/
theorem insert (hopcode : registry.operation? operation.opcode = none)
    (hname : registry.opcodeOf? operation.name = none) :
    (registry.insert operation).Consistent where
  distinct := h.distinct.insert
  opcodeOf?_eq_some_iff {name opcode} := by
    have hnamed (other : Operation) (hother : registry.operation? opcode = some other) :
        other.name ≠ operation.name := by
      intro heq
      have htaken := h.opcodeOf?_eq_some_iff.mpr ⟨other, hother, heq⟩
      rw [hname] at htaken
      cases htaken
    have hbefore := @h.opcodeOf?_eq_some_iff name opcode
    have hafter : (registry.insert operation).opcodeOf? name =
        if name = operation.name then some operation.opcode else registry.opcodeOf? name := rfl
    -- Neither the new opcode nor the new name has led anywhere before.
    rw [hafter, operation?_insert]
    by_cases hsame : opcode = operation.opcode
    · subst hsame
      grind
    · grind
  exists_allows {opcode input output kernel} hkernel := by
    obtain ⟨existing, hexisting, hallows⟩ := h.exists_allows hkernel
    refine ⟨existing, ?_, hallows⟩
    have hother : opcode ≠ operation.opcode := by
      rintro rfl
      rw [hopcode] at hexisting
      cases hexisting
    rw [operation?_insert, if_neg hother, hexisting]

/-- A kernel may be set for types that its operation allows. -/
theorem setKernel (hoperation : registry.operation? opcode = some operation)
    (hallows : operation.allows input output) (kernel : Kernel) :
    Consistent { registry with
      kernel? := Registry.setKernel registry.kernel? opcode input output kernel } where
  distinct := h.distinct
  opcodeOf?_eq_some_iff := h.opcodeOf?_eq_some_iff
  exists_allows {opcode' input' output' kernel'} hkernel := by
    simp only [Registry.setKernel] at hkernel
    split at hkernel
    · rename_i hkey
      obtain ⟨rfl, rfl, rfl⟩ := hkey
      exact ⟨operation, hoperation, hallows⟩
    · exact h.exists_allows hkernel

/-- Every call, successful or not, leaves a consistent registry. -/
theorem after_call (call : Call) : (Update.after call.update registry).Consistent := by
  rcases call.after_cases registry with hok | ⟨_, hsame⟩
  · cases call with
    | register operation =>
        obtain ⟨hopcode, hname, hleft⟩ := register_eq_ok_iff.mp hok
        rw [hleft]
        exact h.insert hopcode hname
    | registerKernel opcode input output kernel =>
        obtain ⟨operation, hoperation, hallows, hleft⟩ := registerKernel_eq_ok_iff.mp hok
        rw [hleft]
        exact h.setKernel hoperation hallows kernel
  · rwa [hsame]

/-- Any calls leave a consistent registry. -/
theorem afterCalls (calls : List Call) : (registry.afterCalls calls).Consistent := by
  induction calls generalizing registry with
  | nil => exact h
  | cons call rest ih => exact ih (h.after_call call)

/-- No two names stand for one opcode. -/
theorem name_unique {name other : String} (hname : registry.opcodeOf? name = some opcode)
    (hother : registry.opcodeOf? other = some opcode) : name = other := by
  obtain ⟨first, hfirst, rfl⟩ := h.opcodeOf?_eq_some_iff.mp hname
  obtain ⟨second, hsecond, rfl⟩ := h.opcodeOf?_eq_some_iff.mp hother
  rw [hfirst] at hsecond
  cases hsecond
  rfl

/-- An executor runs just the kernels of the registry, since their types are allowed. -/
theorem kernelFor_eq_ok_iff (workers : Workers) :
    (Executor.mk registry workers).kernelFor opcode input output = .ok kernel ↔
      registry.kernel? opcode input output = some kernel := by
  rw [Executor.kernelFor_eq_ok_iff]
  constructor
  · rintro ⟨_, _, _, hkernel⟩
    exact hkernel
  · intro hkernel
    obtain ⟨operation, hoperation, hallows⟩ := h.exists_allows hkernel
    exact ⟨operation, by rw [Registry.operation, hoperation], hallows, hkernel⟩

end Consistent

/-! ## The built-in operations -/

/-- Operations whose opcodes and names differ from each other and from those of the registry may be
inserted one after another. -/
theorem Consistent.foldl_insert {operations : List Operation} (h : registry.Consistent)
    (hdistinct : operations.Pairwise fun first second ↦
      first.opcode ≠ second.opcode ∧ first.name ≠ second.name)
    (hfree : ∀ operation ∈ operations, registry.operation? operation.opcode = none ∧
      registry.opcodeOf? operation.name = none) :
    (operations.foldl Registry.insert registry).Consistent := by
  induction operations generalizing registry with
  | nil => exact h
  | cons first rest ih =>
      obtain ⟨hfirst, hrest⟩ := List.pairwise_cons.mp hdistinct
      obtain ⟨hopcode, hname⟩ := hfree first List.mem_cons_self
      refine ih (h.insert hopcode hname) hrest ?_
      intro later hlater
      obtain ⟨hopcode', hname'⟩ := hfree later (List.mem_cons_of_mem _ hlater)
      obtain ⟨hother, hother'⟩ := hfirst later hlater
      rw [operation?_insert, if_neg hother.symm]
      exact ⟨hopcode', (if_neg hother'.symm).trans hname'⟩

theorem distinct_builtinOperations :
    builtinOperations.Pairwise fun first second ↦
      first.opcode ≠ second.opcode ∧ first.name ≠ second.name := by
  decide

/-- The types that the machine computes with are types of numbers. -/
theorem numeric_of_computes {platform : Platform} {dtype : DType} (h : platform.computes dtype) :
    DTypeSet.numeric.contains dtype := by
  cases dtype with
  | bool => cases h
  | _ => rfl

end Registry

/-- A reduction allows the types of its kernels. -/
theorem Reduction.allows_of_kernel? {reduction : Reduction} {platform : Platform}
    {input output : DType} {kernel : Kernel}
    (h : reduction.kernel? platform input output = some kernel) :
    reduction.toOperation.allows input output := by
  unfold kernel? at h
  split at h
  · rename_i hcomputes
    obtain ⟨hinput, houtput⟩ := Bool.and_eq_true_iff.mp hcomputes
    refine Bool.and_eq_true_iff.mpr ⟨Registry.numeric_of_computes hinput, ?_⟩
    show reduction.outputTypes.contains output
    rw [Reduction.outputTypes]
    cases hrule : reduction.outputRule with
    | sameAsInput => exact Registry.numeric_of_computes houtput
    | floats | ints =>
        simp only [hrule] at h
        split at h
        · rename_i hkind
          cases output <;> first | rfl | cases hkind
        · cases h
  · cases h

/-- A transform allows the types of its kernels. -/
theorem Transform.allows_of_kernel? {transform : Transform} {platform : Platform}
    {input output : DType} {kernel : Kernel}
    (h : transform.kernel? platform input output = some kernel) :
    transform.toOperation.allows input output := by
  unfold kernel? at h
  unfold Operation.allows toOperation
  cases htarget : transform.target? with
  | some target =>
      simp only [htarget] at h ⊢
      split at h
      · cases h
      · rename_i hsame
        obtain rfl : output = target := not_not.mp hsame
        cases input <;> cases output <;> rfl
  | none =>
      simp only [htarget] at h ⊢
      split at h
      · rename_i hsame
        obtain ⟨rfl, hcomputes⟩ : input = output ∧ platform.computes input := by simpa using hsame
        rw [Registry.numeric_of_computes hcomputes]
        rfl
      · cases h

namespace Registry

variable {registry : Registry} {opcode : Nat} {input output : DType}

theorem operation_eq_ok_iff {operation : Operation} :
    registry.operation opcode = .ok operation ↔ registry.operation? opcode = some operation := by
  unfold Registry.operation
  cases registry.operation? opcode <;> simp

theorem consistent_builtin (platform : Platform) : (builtin platform).Consistent := by
  have hinserted : (builtinOperations.foldl insert empty).Consistent :=
    consistent_empty.foldl_insert distinct_builtinOperations fun _ _ ↦ ⟨rfl, rfl⟩
  refine { distinct := hinserted.distinct
           opcodeOf?_eq_some_iff := hinserted.opcodeOf?_eq_some_iff
           exists_allows := ?_ }
  intro opcode input output kernel hkernel
  unfold builtin at hkernel
  simp only at hkernel
  split at hkernel
  · rename_i reduction hreduction
    obtain rfl : reduction.opcode = opcode := by simpa using List.find?_some hreduction
    exact ⟨reduction.toOperation, operation_eq_ok_iff.mp (operation_builtin platform reduction),
      Reduction.allows_of_kernel? hkernel⟩
  · split at hkernel
    · rename_i transform htransform
      obtain rfl : transform.opcode = opcode := by simpa using List.find?_some htransform
      exact ⟨transform.toOperation,
        operation_eq_ok_iff.mp (operation_builtin_transform platform transform),
        Transform.allows_of_kernel? hkernel⟩
    · cases hkernel

/-! ## Later lookups -/

/-- A call keeps the operations that are there. -/
theorem operation?_after_call {operation : Operation} (call : Call)
    (h : registry.operation? opcode = some operation) :
    (Update.after call.update registry).operation? opcode = some operation := by
  rcases call.after_cases registry with hok | ⟨_, hsame⟩
  · cases call with
    | register added =>
        obtain ⟨hfree, _, hleft⟩ := register_eq_ok_iff.mp hok
        have hother : opcode ≠ added.opcode := by
          rintro rfl
          rw [hfree] at h
          cases h
        rw [hleft, operation?_insert, if_neg hother, h]
    | registerKernel opcode' input output kernel =>
        obtain ⟨_, _, _, hleft⟩ := registerKernel_eq_ok_iff.mp hok
        rw [hleft]
        exact h
  · rw [hsame, h]

/-- Any calls keep the operations that are there. -/
theorem operation?_afterCalls {operation : Operation} (calls : List Call)
    (h : registry.operation? opcode = some operation) :
    (registry.afterCalls calls).operation? opcode = some operation := by
  induction calls generalizing registry with
  | nil => exact h
  | cons call rest ih => exact ih (operation?_after_call call h)

/-- After a call, a kernel is the one that the call added, or the one from before. -/
theorem kernel?_after_call (registry : Registry) (call : Call) (opcode : Nat)
    (input output : DType) :
    (Update.after call.update registry).kernel? opcode input output =
      ((call.added? registry).toList.lookup (opcode, input, output)).or
        (registry.kernel? opcode input output) := by
  rcases call.after_cases registry with hok | ⟨hnone, hsame⟩
  · cases call with
    | register added =>
        obtain ⟨_, _, hleft⟩ := register_eq_ok_iff.mp hok
        rw [hleft]
        rfl
    | registerKernel opcode' input' output' kernel =>
        have hadded : (Call.registerKernel opcode' input' output' kernel).added? registry =
            some ((opcode', input', output'), kernel) := by
          rw [Call.added?, hok]
        obtain ⟨_, _, _, hleft⟩ := registerKernel_eq_ok_iff.mp hok
        rw [hadded, hleft]
        by_cases hkey : opcode = opcode' ∧ input = input' ∧ output = output'
        · obtain ⟨rfl, rfl, rfl⟩ := hkey
          simp [setKernel]
        · have hother : ((opcode, input, output) == (opcode', input', output')) = false := by
            simpa using hkey
          simp [setKernel, hkey, List.lookup_cons, hother]
  · rw [hsame, hnone]
    rfl

/-- After any calls, a kernel is the one that was added last for its key, or the one from before. -/
theorem kernel?_afterCalls (registry : Registry) (calls : List Call) (opcode : Nat)
    (input output : DType) :
    (registry.afterCalls calls).kernel? opcode input output =
      ((registry.addedKernels calls).lookup (opcode, input, output)).or
        (registry.kernel? opcode input output) := by
  induction calls generalizing registry with
  | nil => rfl
  | cons call rest ih =>
      have hrest := ih (Update.after call.update registry)
      rw [addedKernels, List.lookup_append, Option.or_assoc, ← kernel?_after_call]
      exact hrest

/-! ## Listings -/

/-- The listing holds the operations of the registry. -/
theorem mem_descriptors {operation : Operation} :
    operation ∈ registry.descriptors ↔ operation ∈ registry.operations :=
  List.mem_mergeSort

/-- The listing ascends strictly if no two operations have one opcode. -/
theorem pairwise_descriptors (h : Operation.Distinct registry.operations) :
    registry.descriptors.Pairwise fun first second ↦ first.opcode < second.opcode := by
  have hsorted : registry.descriptors.Pairwise fun first second ↦
      decide (first.opcode ≤ second.opcode) :=
    List.pairwise_mergeSort (by grind) (by grind) _
  have hperm : registry.descriptors.Perm registry.operations := List.mergeSort_perm _ _
  have hdistinct : registry.descriptors.Pairwise fun first second ↦
      first.opcode ≠ second.opcode :=
    List.pairwise_map.mp ((hperm.map Operation.opcode).nodup_iff.mpr h)
  refine (hsorted.and hdistinct).imp ?_
  rintro first second ⟨hle, hne⟩
  exact Nat.lt_of_le_of_ne (of_decide_eq_true hle) hne

/-- A pair of types comes before another one, by the tag of the input type and then by that of the
output type. -/
def TypesBefore : DType × DType → DType × DType → Prop :=
  Prod.Lex (fun first second ↦ first.tag < second.tag) fun first second ↦ first.tag < second.tag

/-- Of two distinct pairs in order, the first one comes before the second. -/
theorem typesBefore_of_pairLE {first second : DType × DType} (hle : pairLE first second)
    (hne : first ≠ second) : TypesBefore first second := by
  obtain ⟨input, output⟩ := first
  obtain ⟨input', output'⟩ := second
  simp only [pairLE, Bool.or_eq_true, Bool.and_eq_true, decide_eq_true_eq, beq_iff_eq] at hle
  rcases hle with hlt | ⟨hinput, houtput⟩
  · exact .left _ _ hlt
  · obtain rfl := DType.tag_injective hinput
    refine .right _ (Nat.lt_of_le_of_ne houtput fun htag ↦ hne ?_)
    rw [DType.tag_injective htag]

theorem mem_typePairs :
    (input, output) ∈ registry.typePairs opcode ↔
      (registry.kernel? opcode input output).isSome := by
  simp [typePairs, DType.mem_all]

/-- The listing of the pairs ascends strictly. -/
theorem pairwise_typePairs (registry : Registry) (opcode : Nat) :
    (registry.typePairs opcode).Pairwise TypesBefore := by
  have hsorted : (registry.typePairs opcode).Pairwise fun first second ↦ pairLE first second :=
    List.pairwise_mergeSort (by simp only [pairLE]; grind) (by simp only [pairLE]; grind) _
  have hall : DType.all.Nodup := by decide
  have hdistinct : (registry.typePairs opcode).Nodup :=
    (List.mergeSort_perm _ _).nodup_iff.mpr ((hall.product hall).filter _)
  exact (hsorted.and hdistinct).imp fun ⟨hle, hne⟩ ↦ typesBefore_of_pairLE hle hne

/-- In a registry that was made without operations or with the built-in ones, and on which any calls
were made, names and opcodes correspond to each other through the operations that have them, and
every kernel is for types that its operation allows, so that an executor finds just the kernels of
the registry. A call that fails changes nothing, and no calls change an operation that is there. A
kernel is the one that was added last for its opcode and types. The pairs of types and the
operations are listed completely and in ascending order. -/
theorem lookups_afterCalls {start : Registry}
    (hstart : start = empty ∨ ∃ platform, start = builtin platform) (calls : List Call)
    (hregistry : start.afterCalls calls = registry) :
    ((∀ name opcode, registry.opcodeOf? name = some opcode ↔
        ∃ operation, registry.operation? opcode = some operation ∧ operation.name = name) ∧
      ∀ name other opcode, registry.opcodeOf? name = some opcode →
        registry.opcodeOf? other = some opcode → name = other) ∧
    ((∀ opcode input output kernel, registry.kernel? opcode input output = some kernel →
        ∃ operation, registry.operation? opcode = some operation ∧
          operation.inputTypes.contains input ∧ operation.outputTypes.contains output) ∧
      ∀ workers opcode input output kernel,
        (Executor.mk registry workers).kernelFor opcode input output = .ok kernel ↔
          registry.kernel? opcode input output = some kernel) ∧
    ((∀ (call : Call) error left, call.update registry = .error error left → left = registry) ∧
      ∀ more opcode operation, registry.operation? opcode = some operation →
        (registry.afterCalls more).operation? opcode = some operation) ∧
    (∀ opcode input output, registry.kernel? opcode input output =
      ((start.addedKernels calls).lookup (opcode, input, output)).or
        (start.kernel? opcode input output)) ∧
    (∀ opcode, (registry.typePairs opcode).Pairwise TypesBefore ∧
      ∀ input output, (input, output) ∈ registry.typePairs opcode ↔
        (registry.kernel? opcode input output).isSome) ∧
    registry.descriptors.Pairwise (fun first second ↦ first.opcode < second.opcode) ∧
    ∀ operation, operation ∈ registry.descriptors ↔
      registry.operation? operation.opcode = some operation := by
  have hconsistent : registry.Consistent := by
    rw [← hregistry]
    rcases hstart with rfl | ⟨platform, rfl⟩
    · exact consistent_empty.afterCalls calls
    · exact (consistent_builtin platform).afterCalls calls
  refine ⟨⟨fun name opcode ↦ hconsistent.opcodeOf?_eq_some_iff, fun name other opcode ↦
    hconsistent.name_unique⟩, ⟨?allowed, fun workers opcode input output kernel ↦
    hconsistent.kernelFor_eq_ok_iff workers⟩, ⟨fun call ↦ call.atomic_update registry,
    fun more opcode operation ↦ operation?_afterCalls more⟩, ?latest,
    fun opcode ↦ ⟨pairwise_typePairs registry opcode, fun input output ↦ mem_typePairs⟩,
    pairwise_descriptors hconsistent.distinct, ?listed⟩
  case allowed =>
    intro opcode input output kernel hkernel
    obtain ⟨operation, hoperation, hallows⟩ := hconsistent.exists_allows hkernel
    exact ⟨operation, hoperation, Bool.and_eq_true_iff.mp hallows⟩
  case latest =>
    intro opcode input output
    rw [← hregistry]
    exact kernel?_afterCalls start calls opcode input output
  case listed =>
    intro operation
    rw [mem_descriptors]
    exact ⟨fun hmem ↦ hconsistent.distinct.find?_eq_some_iff.mpr ⟨hmem, rfl⟩, fun hfound ↦
      (hconsistent.distinct.find?_eq_some_iff.mp hfound).1⟩

/-- Three operations, of which the first two have an opcode and a name that are taken, and three
kernels for the third one, of which the first is for a type that it does not allow. -/
def swapCalls : List Call :=
  [.register { Transform.assign.toOperation with name := "swap" },
    .register { Transform.assign.toOperation with opcode := 2000 },
    .register { Transform.assign.toOperation with opcode := 2000, name := "swap" },
    .registerKernel 2000 .bool .i8 (Kernel.convertTruth .i8),
    .registerKernel 2000 .i8 .i8 (Kernel.convert .i8 .i8),
    .registerKernel 2000 .i8 .i8 (Kernel.assign .i8)]

/-- The last kernel is in force. -/
theorem lookups_afterCalls_builtin :
    (builtin .small = empty ∨ ∃ platform, builtin .small = builtin platform) ∧
      ((builtin .small).afterCalls swapCalls).kernel? 2000 .i8 .i8 = some (Kernel.assign .i8) := by
  have hstart : builtin .small = empty ∨
      ∃ platform, builtin .small = builtin platform := .inr ⟨_, rfl⟩
  obtain ⟨_, _, _, hlatest, _⟩ := lookups_afterCalls hstart swapCalls rfl
  refine ⟨hstart, ?_⟩
  rw [hlatest]
  rfl

end Registry

end ArrayEngine
