import ArrayEngine.Benchmark.Reduction
import ArrayEngine.Proofs.Operation.BoundOutput
import ArrayEngine.Proofs.Operation.Inference

/-!
# Running an operation again

The first run of an operation may have to make its output, and later runs find it bound. Either way
the checks choose the same kernel, and the kernel writes the same elements to the same cells. Hence
the invocation that the first run has left is left by every further one (`run_again`). A benchmark
measures the same computation over and over, and `run_repeated` says what it leaves behind.
-/

namespace ArrayEngine

open Layout

/-! ## Repeated changes -/

namespace Update

variable {ε σ : Type} {update : EStateM ε σ Unit} {state after : σ}

/-- The change made a number of times, up to the first failure. -/
def times (update : EStateM ε σ Unit) : Nat → EStateM ε σ Unit
  | 0 => fun state ↦ .ok () state
  | more + 1 => fun state ↦
      match update state with
      | .error error left => .error error left
      | .ok _ left => times update more left

theorem times_succ_of_ok (h : update state = .ok () after) (more : Nat) :
    times update (more + 1) state = times update more after := by
  simp only [times, h]

/-- If a change leaves what it has left before, it does so any number of times. -/
theorem times_eq_ok (hfirst : update state = .ok () after) (hagain : update after = .ok () after)
    {count : Nat} (hcount : 0 < count) : times update count state = .ok () after := by
  have hsettled (more : Nat) : times update more after = .ok () after := by
    induction more with
    | zero => rfl
    | succ more ih => rw [times_succ_of_ok hagain, ih]
  obtain ⟨more, rfl⟩ := Nat.exists_eq_add_one_of_ne_zero hcount.ne'
  rw [times_succ_of_ok hfirst, hsettled]

end Update

namespace Benchmark

variable {σ : Type} {benchmark : Benchmark σ} {state prepared ran : σ} {time again : Nat}

theorem runTimes_succ_of_ok (h : benchmark.run prepared = .ok time ran) {more : Nat}
    {times : List Nat} {left : σ} (hmore : benchmark.runTimes more ran = .ok times left) :
    benchmark.runTimes (more + 1) prepared = .ok (min time Size.largest :: times) left :=
  (bind_of_ok h).trans (bind_of_ok hmore)

section

variable (hagain : benchmark.run ran = .ok again ran)

include hagain

/-- A benchmark that leaves what it has left before can be run any number of times. -/
theorem exists_runTimes (count : Nat) :
    ∃ times, times.length = count ∧ benchmark.runTimes count ran = .ok times ran := by
  induction count with
  | zero => exact ⟨[], rfl, rfl⟩
  | succ count ih =>
      obtain ⟨times, hlength, htimes⟩ := ih
      exact ⟨_, congrArg (· + 1) hlength, runTimes_succ_of_ok hagain htimes⟩

variable (hfirst : benchmark.run prepared = .ok time ran)

include hfirst

theorem exists_runTimes_of_first {count : Nat} (hcount : 0 < count) :
    ∃ times, times.length = count ∧ benchmark.runTimes count prepared = .ok times ran := by
  obtain ⟨more, rfl⟩ := Nat.exists_eq_add_one_of_ne_zero hcount.ne'
  obtain ⟨times, hlength, htimes⟩ := exists_runTimes hagain more
  exact ⟨_, congrArg (· + 1) hlength, runTimes_succ_of_ok hfirst htimes⟩

/-- The harness leaves what the first run has left, whether that was for warming up or for its time,
if there is room for the times. -/
theorem Harness.exists_measure (hsetUp : benchmark.setUp state = .ok () prepared)
    {harness : Harness} (hruns : 0 < harness.warmups + harness.runs)
    (hroom : harness.runs < 2 ^ 60) :
    ∃ report, harness.measure benchmark state = .ok report ran := by
  obtain ⟨discarded, samples, left, hwarmups, hsamples⟩ : ∃ discarded samples left,
      benchmark.runTimes harness.warmups prepared = .ok discarded left ∧
        benchmark.runTimes harness.runs left = .ok samples ran := by
    rcases Nat.eq_zero_or_pos harness.warmups with hzero | hpos
    · obtain ⟨samples, -, hsamples⟩ :=
        exists_runTimes_of_first hagain hfirst (show 0 < harness.runs by omega)
      exact ⟨[], samples, prepared, by rw [hzero]; rfl, hsamples⟩
    · obtain ⟨discarded, -, hwarmups⟩ := exists_runTimes_of_first hagain hfirst hpos
      obtain ⟨samples, -, hsamples⟩ := exists_runTimes hagain harness.runs
      exact ⟨discarded, samples, ran, hwarmups, hsamples⟩
  have hreserve (state : σ) :
      (reserve harness.runs sampleBytes : EStateM Failure σ Unit) state = .ok () state := by
    have hreserved : reserve harness.runs sampleBytes = .ok () :=
      reserve_eq_ok_iff.mpr (by simp only [sampleBytes, listLimit]; omega)
    rw [hreserved]
    rfl
  exact ⟨.ofSamples (benchmark.opcode ran) (benchmark.dtype ran) (benchmark.extents ran) samples,
    (bind_of_ok hsetUp).trans ((bind_of_ok hwarmups).trans
      ((bind_of_ok (hreserve left)).trans (bind_of_ok hsamples)))⟩

end

end Benchmark

/-! ## Runs of the built-in operations -/

namespace Executor

variable {platform : Platform} {workers : Workers} {opcode : Nat} {invocation after : Invocation}

/-- A run that succeeds has changed its output and nothing else, and running it again changes
nothing. -/
theorem run_again (hplace : invocation.inPlace = false)
    (h : (Executor.mk (.builtin platform) workers).run opcode invocation = .ok () after) :
    (∃ left, after = invocation.bindOutput 0 left ∧
      ∀ bound, invocation.boundOutput? 0 = some bound → left.layout = bound.layout) ∧
    (Executor.mk (.builtin platform) workers).run opcode after = .ok () after := by
  obtain ⟨kernel, fresh, hprepare, hkernel⟩ := run_eq_ok_iff.mp h
  obtain ⟨operation, input, layouts, output, hprepared⟩ := prepare_eq_ok_iff.mp hprepare
  obtain ⟨⟨extents, order, dtype, rfl⟩, hbuiltin⟩ := hprepared.of_builtin
  obtain ⟨start, hstart, hdtype, hextents, hbound⟩ := hprepared.exists_start hplace
  rw [hstart] at hkernel
  obtain ⟨_, values, hwrites⟩ := hbuiltin.exists_writes hplace hkernel
  obtain ⟨left, hwrite, rfl⟩ := hwrites.exists_write hplace hkernel
  -- The output has kept its layout, so that the checks find nothing new.
  have hlayout := Tensor.layout_of_write hwrite
  have hdtype' : left.dtype = output := by
    rw [Tensor.dtype, hlayout]
    exact hdtype
  have hextents' : left.extents = extents := by
    rw [Tensor.extents, hlayout]
    exact hextents
  refine ⟨⟨left, rfl, fun bound hfound ↦ hbound bound hfound ▸ hlayout⟩, ?_⟩
  exact run_eq_ok_iff.mpr ⟨kernel, [], prepare_eq_ok_iff.mpr
    ⟨operation, input, _, output, hprepared.rebind hplace hdtype' hextents'⟩,
    hwrites.eq_ok hplace (Tensor.write_write hwrite)⟩

end Executor

/-! ## Benchmarks of reductions -/

namespace Benchmark

variable {executor : Executor} {platform : Platform} {workers : Workers} {opcode : Nat}
  {dtype : DType} {extents : List Nat} {axes : Option (List Nat)}

/-- A benchmark of a built-in operation is set up with one output, bound beside the input. -/
theorem exists_bindOutput_of_setUp {state prepared : Option Invocation}
    (h : (ofReduction ⟨.builtin platform, workers⟩ opcode dtype extents axes).setUp state =
      .ok () prepared) :
    ∃ (base : Invocation) (blank : Tensor), base.inPlace = false ∧
      prepared = some (base.bindOutput 0 blank) := by
  simp only [ofReduction, reductionInvocation] at h
  split at h
  · cases h
  · rename_i invocation hinvocation
    cases h
    obtain ⟨input, _, hbound⟩ := bind_eq_ok.mp hinvocation
    obtain ⟨layouts, hlayouts, hbound⟩ := bind_eq_ok.mp hbound
    obtain ⟨layout, rfl⟩ : ∃ layout, layouts = [layout] := by
      rcases Executor.outputLayouts_builtin hlayouts with ⟨_, _, _, _, heq⟩ | ⟨_, _, heq⟩
      · exact ⟨_, heq⟩
      · exact ⟨_, heq⟩
    obtain ⟨blank, _, hrest⟩ := bind_eq_ok.mp hbound
    cases hrest
    exact ⟨_, blank, rfl, rfl⟩

/-- A run executes the operation and finds an output. -/
theorem ofReduction_run_eq_ok_iff {invocation : Invocation} {time : Nat}
    {ran : Option Invocation} :
    (ofReduction executor opcode dtype extents axes).run (some invocation) = .ok time ran ↔
      ∃ after output, executor.run opcode invocation = .ok () after ∧
        after.output 0 = .ok output ∧ time = 0 ∧ ran = some after := by
  simp only [ofReduction]
  cases executor.run opcode invocation with
  | error error left => simp
  | ok _ left =>
      cases houtput : left.output 0 with
      | error error => simp [houtput]
      | ok output => simp [houtput, eq_comm]

end Benchmark

/-- A built-in operation that succeeds with separate outputs, bound or not, can be run again on what
it has left, and leaves the same: after any number of runs the invocation is that after the first.
So a benchmark of an operation, if its first run succeeds, can be run any number of times and be
measured with any numbers of runs for whose times there is room, and always leaves what the first
run has left in the output that was bound when it was set up. -/
theorem Executor.run_repeated (platform : Platform) (workers : Workers) :
    (∀ {opcode : Nat} {invocation after : Invocation}, invocation.inPlace = false →
      (Executor.mk (.builtin platform) workers).run opcode invocation = .ok () after →
      (Executor.mk (.builtin platform) workers).run opcode after = .ok () after ∧
        ∀ {count : Nat}, 0 < count →
          Update.times ((Executor.mk (.builtin platform) workers).run opcode) count invocation =
            .ok () after) ∧
    ∀ {opcode : Nat} {dtype : DType} {extents : List Nat} {axes : Option (List Nat)}
      {benchmark : Benchmark (Option Invocation)} {state prepared ran : Option Invocation}
      {time : Nat},
      benchmark = .ofReduction ⟨.builtin platform, workers⟩ opcode dtype extents axes →
      benchmark.setUp state = .ok () prepared → benchmark.run prepared = .ok time ran →
      (∃ (base : Invocation) (blank filled : Tensor), prepared = some (base.bindOutput 0 blank) ∧
        ran = some (base.bindOutput 0 filled) ∧ filled.layout = blank.layout) ∧
      (∀ {count : Nat}, 0 < count →
        ∃ times, times.length = count ∧ benchmark.runTimes count prepared = .ok times ran) ∧
      ∀ {harness : Benchmark.Harness}, 0 < harness.warmups + harness.runs →
        harness.runs < 2 ^ 60 → ∃ report, harness.measure benchmark state = .ok report ran := by
  constructor
  · intro opcode invocation after hplace hrun
    have hagain := (run_again hplace hrun).2
    exact ⟨hagain, Update.times_eq_ok hrun hagain⟩
  · rintro opcode dtype extents axes benchmark state prepared ran time rfl hsetUp hfirst
    obtain ⟨base, blank, hplace, rfl⟩ := Benchmark.exists_bindOutput_of_setUp hsetUp
    obtain ⟨after, output, hrun, houtput, -, rfl⟩ :=
      Benchmark.ofReduction_run_eq_ok_iff.mp hfirst
    obtain ⟨⟨filled, hafter, hlayout⟩, hrun'⟩ :=
      run_again ((base.inPlace_bindOutput 0 blank).trans hplace) hrun
    have hagain : (Benchmark.ofReduction ⟨.builtin platform, workers⟩ opcode dtype extents axes).run
        (some after) = .ok 0 (some after) :=
      Benchmark.ofReduction_run_eq_ok_iff.mpr ⟨after, output, hrun', houtput, rfl, rfl⟩
    rw [Invocation.bindOutput_bindOutput] at hafter
    exact ⟨⟨base, blank, filled, rfl, congrArg some hafter,
        hlayout blank (base.boundOutput?_bindOutput 0 blank)⟩,
      Benchmark.exists_runTimes_of_first hagain hfirst,
      fun hruns hroom ↦ Benchmark.Harness.exists_measure hagain hfirst hsetUp hruns hroom⟩

/-- The copy of two numbers to an output in which they share a cell, which holds this number. -/
def sharedCopy (held : Scalar .i8) : Invocation :=
  ⟨[⟨packed [2] .rowMajor .i8, ⟨.i8, #[⟨7⟩, ⟨8⟩]⟩⟩],
    [some ⟨make [2] [0] .rowMajor .i8, ⟨.i8, #[held]⟩⟩], {}, false⟩

/-- The benchmark of the largest of no numbers. -/
def maxOfNone : Benchmark (Option Invocation) :=
  .ofReduction .small Reduction.max.opcode .i8 [0] none

/-- Its invocation, with an output that holds this number. -/
def maxOfNoneLeaving (held : Scalar .i8) : Option Invocation :=
  some ⟨[⟨packed [0] .rowMajor .i8, ⟨.i8, #[]⟩⟩],
    [some ⟨packed [] .rowMajor .i8, ⟨.i8, #[held]⟩⟩], {}, false⟩

/-- Two numbers are copied to one cell, three times over. A benchmark of the largest of no numbers
leaves the least one, for a warm-up and two times. -/
theorem Executor.run_repeated_shared :
    Update.times (Executor.small.run Transform.assign.opcode) 3 (sharedCopy ⟨90⟩) =
        .ok () (sharedCopy ⟨8⟩) ∧
      ∃ report, Benchmark.Harness.measure ⟨1, 2⟩ maxOfNone none =
        .ok report (maxOfNoneLeaving ⟨128⟩) := by
  have hrun : Executor.small.run Transform.assign.opcode (sharedCopy ⟨90⟩) =
      .ok () (sharedCopy ⟨8⟩) := rfl
  have hsetUp : maxOfNone.setUp none = .ok () (maxOfNoneLeaving ⟨0⟩) := rfl
  have hfirst : maxOfNone.run (maxOfNoneLeaving ⟨0⟩) = .ok 0 (maxOfNoneLeaving ⟨128⟩) := rfl
  obtain ⟨hrepeated, hmeasured⟩ := run_repeated .small .small
  exact ⟨(hrepeated rfl hrun).2 (by decide),
    (hmeasured rfl hsetUp hfirst).2.2 (by decide) (by decide)⟩

end ArrayEngine
