import ArrayEngine.Benchmark.Harness
import Mathlib.Algebra.Ring.Nat
import Mathlib.Data.List.Forall2

/-!
# What the harness does, and in which order

A benchmark is a transition system: setting it up and running it lead from state to state, and may
fail in any of them. `Event` names the steps of these systems and of the sink of lines, and the two
that the harness takes on its own: it makes room for the times, and it reads off the state what a
report names. A plan is a list of events. `Harness.follows_plan` says that the harness goes along a
plan, up to the first event that fails: nothing else is done, nothing is done in another order, and
nothing is done behind a failure.
-/

namespace ArrayEngine.Benchmark

variable {σ ω α β : Type}

/-! ## Events -/

/-- One step of the harness. -/
inductive Event (σ : Type) where
  | setUp (benchmark : Benchmark σ)
  /-- A run and the time that it takes. -/
  | run (benchmark : Benchmark σ) (time : Nat)
  /-- Room is made for a number of times. -/
  | reserve (count : Nat)
  /-- The state is looked at. -/
  | inspect (state : σ)
  | write (line : String)

namespace Event

/-- The event leads from one state to another. -/
inductive Happens (sink : LineSink ω) : Event σ → σ × ω → σ × ω → Prop
  | setUp {benchmark : Benchmark σ} {state left : σ} {written : ω}
      (h : benchmark.setUp state = .ok () left) :
      Happens sink (.setUp benchmark) (state, written) (left, written)
  | run {benchmark : Benchmark σ} {time : Nat} {state left : σ} {written : ω}
      (h : benchmark.run state = .ok time left) :
      Happens sink (.run benchmark time) (state, written) (left, written)
  | reserve {count : Nat} {state : σ × ω}
      (h : ArrayEngine.reserve count Harness.sampleBytes = .ok ()) :
      Happens sink (.reserve count) state state
  | inspect (state : σ) (written : ω) :
      Happens sink (.inspect state) (state, written) (state, written)
  | write {line : String} {state : σ} {written longer : ω} (h : sink line written = .ok () longer) :
      Happens sink (.write line) (state, written) (state, longer)

/-- The event is tried and fails. A run that fails takes no particular time, and looking at the
state never fails. -/
inductive Fails (sink : LineSink ω) : Event σ → σ × ω → Failure → σ × ω → Prop
  | setUp {benchmark : Benchmark σ} {state left : σ} {written : ω} {failure : Failure}
      (h : benchmark.setUp state = .error failure left) :
      Fails sink (.setUp benchmark) (state, written) failure (left, written)
  | run {benchmark : Benchmark σ} {time : Nat} {state left : σ} {written : ω} {failure : Failure}
      (h : benchmark.run state = .error failure left) :
      Fails sink (.run benchmark time) (state, written) failure (left, written)
  | reserve {count : Nat} {state : σ × ω} {panic : Panic}
      (h : ArrayEngine.reserve count Harness.sampleBytes = .error panic) :
      Fails sink (.reserve count) state (.panicked panic) state
  | write {line reason : String} {state : σ} {written left : ω}
      (h : sink line written = .error reason left) :
      Fails sink (.write line) (state, written)
        (.raised (.internal ("writing benchmark report: " ++ reason))) (state, left)

/-- There is no room for `2 ^ 60` times or more. -/
theorem fails_reserve_iff {sink : LineSink ω} {count : Nat} {start final : σ × ω}
    {failure : Failure} :
    Fails sink (.reserve count) start failure final ↔
      2 ^ 60 ≤ count ∧ failure = .panicked .capacityOverflow ∧ final = start := by
  have hlimit : listLimit = 2 ^ 60 * Harness.sampleBytes := rfl
  have hroom : count * Harness.sampleBytes < listLimit ↔ count < 2 ^ 60 := by
    rw [hlimit]
    exact Nat.mul_lt_mul_right (by decide)
  constructor
  · rintro ⟨⟩
    rename_i panic h
    unfold ArrayEngine.reserve at h
    split at h
    · cases h
    · cases h
      exact ⟨by omega, rfl, rfl⟩
  · rintro ⟨hmany, rfl, rfl⟩
    exact .reserve (if_neg (by omega))

/-- The line that the event writes, if it does. -/
def line? : Event σ → Option String
  | write line => some line
  | _ => none

end Event

/-- The events happen one after the other. -/
inductive History (sink : LineSink ω) : List (Event σ) → σ × ω → σ × ω → Prop
  | nil (state : σ × ω) : History sink [] state state
  | cons {event : Event σ} {events : List (Event σ)} {start middle final : σ × ω}
      (hevent : event.Happens sink start middle) (hevents : History sink events middle final) :
      History sink (event :: events) start final

/-- Of the planned events the first ones are done, the next one fails, and the others are not
tried. -/
def Stops (sink : LineSink ω) (plan done : List (Event σ)) (start : σ × ω) (failure : Failure)
    (final : σ × ω) : Prop :=
  ∃ event rest middle, plan = done ++ event :: rest ∧ History sink done start middle ∧
    event.Fails sink middle failure final

/-- The outcome of a plan: its result if all events happen, and otherwise the first failure. -/
def Follows (sink : LineSink ω) (plan : List (Event σ)) (start : σ × ω) (result : α) :
    EStateM.Result Failure (σ × ω) α → Prop
  | .ok value final => value = result ∧ History sink plan start final
  | .error failure final => ∃ done, Stops sink plan done start failure final

variable {sink : LineSink ω} {first second : List (Event σ)} {start middle final : σ × ω}
  {failure : Failure}

theorem History.append (hfirst : History sink first start middle)
    (hsecond : History sink second middle final) : History sink (first ++ second) start final := by
  induction hfirst with
  | nil state => exact hsecond
  | cons hevent _ ih => exact .cons hevent (ih hsecond)

theorem History.follows (h : History sink first start middle) {result : α}
    {outcome : EStateM.Result Failure (σ × ω) α}
    (houtcome : Follows sink second middle result outcome) :
    Follows sink (first ++ second) start result outcome := by
  cases outcome with
  | ok value final => exact ⟨houtcome.1, h.append houtcome.2⟩
  | error failure final =>
      obtain ⟨done, event, rest, state, rfl, hdone, hfails⟩ := houtcome
      exact ⟨first ++ done, event, rest, state, by simp, h.append hdone, hfails⟩

/-- What is planned behind a failure does not matter. -/
theorem Follows.error_append {value : α} {result : β}
    (h : Follows sink first start value (.error failure final)) :
    Follows sink (first ++ second) start result (.error failure final) := by
  obtain ⟨done, event, rest, state, rfl, hdone, hfails⟩ := h
  exact ⟨done, event, rest ++ second, state, by simp, hdone, hfails⟩

/-! ## Actions along a plan -/

/-- Wherever it starts, the action goes along a plan that is allowed with its result. -/
def Along (sink : LineSink ω) (allowed : List (Event σ) → α → Prop)
    (action : EStateM Failure (σ × ω) α) : Prop :=
  ∀ start, ∃ plan result, allowed plan result ∧ Follows sink plan start result (action start)

namespace Along

variable {allowed : List (Event σ) → α → Prop}

theorem pure (value : α) :
    Along sink (fun plan result ↦ plan = [] ∧ result = value)
      (Pure.pure value : EStateM Failure (σ × ω) α) :=
  fun start ↦ ⟨[], value, ⟨rfl, rfl⟩, rfl, .nil start⟩

/-- The plans of two actions in a row are those of the first followed by those of the second. -/
theorem bind {action : EStateM Failure (σ × ω) α} {next : α → EStateM Failure (σ × ω) β}
    {allowedNext : α → List (Event σ) → β → Prop} (haction : Along sink allowed action)
    (hnext : ∀ value, Along sink (allowedNext value) (next value)) :
    Along sink
      (fun plan result ↦ ∃ first value second, allowed first value ∧
        allowedNext value second result ∧ plan = first ++ second)
      (action >>= next) := by
  intro start
  obtain ⟨first, value, hfirst, hfollows⟩ := haction start
  cases houtcome : action start with
  | ok reached middle =>
      rw [houtcome] at hfollows
      obtain ⟨rfl, hhistory⟩ := hfollows
      obtain ⟨second, result, hsecond, hrest⟩ := hnext reached middle
      rw [bind_of_ok houtcome]
      exact ⟨_, result, ⟨first, reached, second, hfirst, hsecond, rfl⟩, hhistory.follows hrest⟩
  | error failure final =>
      rw [houtcome] at hfollows
      -- Any plan of the second action will do, since none of it is tried.
      obtain ⟨second, result, hsecond, -⟩ := hnext value final
      rw [bind_of_error houtcome]
      exact ⟨_, result, ⟨first, value, second, hfirst, hsecond, rfl⟩, hfollows.error_append⟩

theorem mono {action : EStateM Failure (σ × ω) α} {wider : List (Event σ) → α → Prop}
    (haction : Along sink allowed action)
    (h : ∀ plan result, allowed plan result → wider plan result) : Along sink wider action := by
  intro start
  obtain ⟨plan, result, hallowed, hfollows⟩ := haction start
  exact ⟨plan, result, h plan result hallowed, hfollows⟩

end Along

/-- An action on the common state of the benchmarks that leaves the sink alone. -/
def beside (action : EStateM Failure σ α) : EStateM Failure (σ × ω) α :=
  onPart Prod.fst (fun state (_, written) ↦ (state, written)) action

theorem Along.beside_pure (value : α) :
    Along sink (fun plan result ↦ plan = [] ∧ result = value)
      (beside (Pure.pure value : EStateM Failure σ α)) :=
  .pure value

theorem Along.beside_bind {action : EStateM Failure σ α} {next : α → EStateM Failure σ β}
    {allowed : List (Event σ) → α → Prop} {allowedNext : α → List (Event σ) → β → Prop}
    (haction : Along sink allowed (beside action))
    (hnext : ∀ value, Along sink (allowedNext value) (beside (next value))) :
    Along sink
      (fun plan result ↦ ∃ first value second, allowed first value ∧
        allowedNext value second result ∧ plan = first ++ second)
      (beside (action >>= next)) := by
  have hbeside : (beside (action >>= next) : EStateM Failure (σ × ω) β) =
      beside action >>= fun value ↦ beside (next value) := by
    funext ⟨state, written⟩
    show onPart _ _ (EStateM.bind action next) _ = EStateM.bind _ _ _
    simp only [beside, onPart, EStateM.bind]
    cases action state with
    | ok value left => rfl
    | error failure left => rfl
  rw [hbeside]
  exact haction.bind hnext

theorem along_setUp (benchmark : Benchmark σ) :
    Along sink (fun plan _ ↦ plan = [.setUp benchmark]) (beside benchmark.setUp) := by
  rintro ⟨state, written⟩
  refine ⟨[.setUp benchmark], (), rfl, ?_⟩
  simp only [beside, onPart]
  cases houtcome : benchmark.setUp state with
  | ok value left => exact ⟨rfl, .cons (.setUp houtcome) (.nil _)⟩
  | error failure left => exact ⟨[], _, [], _, rfl, .nil _, .setUp houtcome⟩

theorem along_run (benchmark : Benchmark σ) :
    Along sink (fun plan time ↦ plan = [.run benchmark time]) (beside benchmark.run) := by
  rintro ⟨state, written⟩
  simp only [beside, onPart]
  cases houtcome : benchmark.run state with
  | ok time left => exact ⟨_, time, rfl, rfl, .cons (.run houtcome) (.nil _)⟩
  | error failure left => exact ⟨_, 0, rfl, [], _, [], _, rfl, .nil _, .run houtcome⟩

theorem along_reserve (count : Nat) :
    Along sink (fun plan _ ↦ plan = [.reserve count])
      (beside (ArrayEngine.reserve count Harness.sampleBytes : EStateM Failure σ Unit)) := by
  intro start
  refine ⟨[.reserve count], (), rfl, ?_⟩
  cases hroom : ArrayEngine.reserve count Harness.sampleBytes with
  | ok _ => exact ⟨rfl, .cons (.reserve hroom) (.nil _)⟩
  | error panic => exact ⟨[], _, [], _, rfl, .nil _, .reserve hroom⟩

theorem along_get :
    Along sink (fun plan state ↦ plan = [.inspect state]) (beside (get : EStateM Failure σ σ)) :=
  fun (state, written) ↦
    ⟨[.inspect state], state, rfl, rfl, .cons (.inspect state written) (.nil _)⟩

theorem along_writeLine (line : String) :
    Along sink (fun plan _ ↦ plan = [.write line]) (Harness.writeLine (σ := σ) sink line) := by
  rintro ⟨state, written⟩
  refine ⟨[.write line], (), rfl, ?_⟩
  simp only [Harness.writeLine]
  cases houtcome : sink line written with
  | ok value longer => exact ⟨rfl, .cons (.write houtcome) (.nil _)⟩
  | error reason left => exact ⟨[], _, [], _, rfl, .nil _, .write houtcome⟩

/-- A benchmark is run as often as it is asked for. -/
theorem along_runTimes (benchmark : Benchmark σ) (count : Nat) :
    Along sink
      (fun plan times ↦ ∃ taken : List Nat, taken.length = count ∧
        plan = taken.map (.run benchmark) ∧ times = taken.map (min · Size.largest))
      (beside (benchmark.runTimes count)) := by
  induction count with
  | zero =>
      refine (Along.beside_pure []).mono ?_
      rintro plan times ⟨rfl, rfl⟩
      exact ⟨[], rfl, rfl, rfl⟩
  | succ count ih =>
      refine ((along_run benchmark).beside_bind fun time ↦
        ih.beside_bind fun times ↦ .beside_pure _).mono ?_
      rintro plan result ⟨_, time, _, rfl, ⟨_, times, _, ⟨taken, hlength, rfl, rfl⟩,
        ⟨rfl, rfl⟩, rfl⟩, rfl⟩
      exact ⟨time :: taken, congrArg (· + 1) hlength, by simp, rfl⟩

/-! ## Plans of the harness -/

/-- The runs of a benchmark that is measured. -/
structure Measurement (σ : Type) where
  benchmark : Benchmark σ
  /-- The times of the runs for warming up. -/
  discarded : List Nat
  /-- The times of the other runs. -/
  samples : List Nat
  /-- The state behind the last run. -/
  left : σ

namespace Measurement

/-- The benchmark is set up once and then run over and over. Room for the times is made behind the
runs for warming up, and the state is looked at behind the last run. -/
def events (measurement : Measurement σ) : List (Event σ) :=
  .setUp measurement.benchmark ::
    (measurement.discarded.map (.run measurement.benchmark) ++
      .reserve measurement.samples.length ::
        (measurement.samples.map (.run measurement.benchmark) ++ [.inspect measurement.left]))

/-- The report on the times that are not discarded, each held to the largest size. -/
def report (measurement : Measurement σ) : Report :=
  .ofSamples (measurement.benchmark.opcode measurement.left)
    (measurement.benchmark.dtype measurement.left) (measurement.benchmark.extents measurement.left)
    (measurement.samples.map (min · Size.largest))

end Measurement

namespace Harness

/-- The measurement has as many runs of the benchmark as the harness asks for. -/
structure Measures (harness : Harness) (benchmark : Benchmark σ) (measurement : Measurement σ) :
    Prop where
  benchmark_eq : measurement.benchmark = benchmark
  length_discarded : measurement.discarded.length = harness.warmups
  length_samples : measurement.samples.length = harness.runs

/-- Each benchmark is measured and then reported on. -/
def reportEach (measured : List (Measurement σ)) : List (Event σ) :=
  measured.flatMap fun measurement ↦ measurement.events ++ [.write measurement.report.line]

/-- The table of a list of measurements: the header, the benchmarks, and an empty line. -/
def table (measured : List (Measurement σ)) : List (Event σ) :=
  .write tableHeader :: (reportEach measured ++ [.write ""])

/-- The plan for a suite: the message, if there is one, and the table. -/
def suite (message : String) (measured : List (Measurement σ)) : List (Event σ) :=
  (if message = "" then [] else [.write message]) ++ table measured

variable (harness : Harness)

theorem along_measure (benchmark : Benchmark σ) :
    Along sink
      (fun plan report ↦ ∃ measurement, harness.Measures benchmark measurement ∧
        plan = measurement.events ∧ report = measurement.report)
      (beside (harness.measure benchmark)) := by
  refine ((along_setUp benchmark).beside_bind fun _ ↦
    (along_runTimes benchmark harness.warmups).beside_bind fun _ ↦
      (along_reserve harness.runs).beside_bind fun _ ↦
        (along_runTimes benchmark harness.runs).beside_bind fun samples ↦
          along_get.beside_bind fun left ↦ .beside_pure _).mono ?_
  rintro plan report ⟨_, _, _, rfl, ⟨_, _, _, ⟨discarded, hdiscarded, rfl, -⟩, ⟨_, _, _, rfl,
    ⟨_, _, _, ⟨samples, hsamples, rfl, rfl⟩, ⟨_, left, _, rfl, ⟨rfl, rfl⟩, rfl⟩, rfl⟩, rfl⟩,
    rfl⟩, rfl⟩
  exact ⟨⟨benchmark, discarded, samples, left⟩, ⟨rfl, hdiscarded, hsamples⟩,
    by simp [Measurement.events, hsamples], rfl⟩

theorem along_measureAll (benchmarks : List (Benchmark σ)) :
    Along sink
      (fun plan reports ↦ ∃ measured, List.Forall₂ harness.Measures benchmarks measured ∧
        plan = reportEach measured ∧ reports = measured.map Measurement.report)
      (harness.measureAll sink benchmarks) := by
  induction benchmarks with
  | nil =>
      refine (Along.pure []).mono ?_
      rintro plan reports ⟨rfl, rfl⟩
      exact ⟨[], .nil, rfl, rfl⟩
  | cons benchmark rest ih =>
      refine ((harness.along_measure benchmark).bind fun report ↦
        (along_writeLine report.line).bind fun _ ↦ ih.bind fun reports ↦ .pure _).mono ?_
      rintro plan result ⟨_, _, _, ⟨measurement, hmeasures, rfl, rfl⟩, ⟨_, _, _, rfl,
        ⟨_, _, _, ⟨measured, hmeasured, rfl, rfl⟩, ⟨rfl, rfl⟩, rfl⟩, rfl⟩, rfl⟩
      exact ⟨measurement :: measured, .cons hmeasures hmeasured, by simp [reportEach], rfl⟩

theorem along_runSuite (message : String) (benchmarks : List (Benchmark σ)) :
    Along sink
      (fun plan reports ↦ ∃ measured, List.Forall₂ harness.Measures benchmarks measured ∧
        plan = suite message measured ∧ reports = measured.map Measurement.report)
      (harness.runSuite sink message benchmarks) := by
  have htable : Along sink
      (fun plan reports ↦ ∃ measured, List.Forall₂ harness.Measures benchmarks measured ∧
        plan = table measured ∧ reports = measured.map Measurement.report)
      (do
        writeLine sink tableHeader
        let reports ← harness.measureAll sink benchmarks
        writeLine sink ""
        pure reports) := by
    refine ((along_writeLine tableHeader).bind fun _ ↦ (harness.along_measureAll benchmarks).bind
      fun _ ↦ (along_writeLine "").bind fun _ ↦ .pure _).mono ?_
    rintro plan result ⟨_, _, _, rfl, ⟨_, _, _, ⟨measured, hmeasured, rfl, rfl⟩,
      ⟨_, _, _, rfl, ⟨rfl, rfl⟩, rfl⟩, rfl⟩, rfl⟩
    exact ⟨measured, hmeasured, rfl, rfl⟩
  unfold runSuite
  by_cases hmessage : message = ""
  · rw [if_neg (not_not.mpr hmessage)]
    refine htable.mono ?_
    rintro plan reports ⟨measured, hmeasured, rfl, rfl⟩
    exact ⟨measured, hmeasured, by simp [suite, hmessage], rfl⟩
  · rw [if_pos hmessage]
    refine ((along_writeLine message).bind fun _ ↦ htable).mono ?_
    rintro plan result ⟨_, _, _, rfl, ⟨measured, hmeasured, rfl, rfl⟩, rfl⟩
    exact ⟨measured, hmeasured, by simp [suite, hmessage], rfl⟩

end Harness

/-! ## Lines that are written -/

/-- The sink has taken a list of lines. A further line is written whole or not at all. -/
structure LineSink.KeepsLines (sink : LineSink ω) (lines : ω → List String) : Prop where
  of_ok {line : String} {written longer : ω} :
    sink line written = .ok () longer → lines longer = lines written ++ [line]
  of_error {line reason : String} {written left : ω} :
    sink line written = .error reason left → lines left = lines written

namespace LineSink.KeepsLines

variable {lines : ω → List String} (hsink : sink.KeepsLines lines)

include hsink

theorem of_happens {event : Event σ} (h : event.Happens sink start final) :
    lines final.2 = lines start.2 ++ event.line?.toList := by
  cases h with
  | setUp | run | reserve | inspect => exact (List.append_nil _).symm
  | write h => exact hsink.of_ok h

theorem of_fails {event : Event σ} (h : event.Fails sink start failure final) :
    lines final.2 = lines start.2 := by
  cases h with
  | setUp | run | reserve => rfl
  | write h => exact hsink.of_error h

/-- The lines that are written are those of the events, in their order. -/
theorem of_history {events : List (Event σ)} (h : History sink events start final) :
    lines final.2 = lines start.2 ++ events.filterMap Event.line? := by
  induction h with
  | nil state => simp
  | @cons event _ _ _ _ hevent _ ih =>
      rw [ih, hsink.of_happens hevent, List.append_assoc]
      cases hline : event.line? with
      | none => simp [hline]
      | some line => simp [hline]

theorem of_stops {plan done : List (Event σ)} (h : Stops sink plan done start failure final) :
    lines final.2 = lines start.2 ++ done.filterMap Event.line? := by
  obtain ⟨event, rest, middle, -, hdone, hfails⟩ := h
  rw [hsink.of_fails hfails, hsink.of_history hdone]

end LineSink.KeepsLines

/-- A benchmark is measured along a plan: it is set up once and then run until the first failure, or
as often as the harness is to run it, and the report is on the runs behind those for warming up. In
front of these there has to be room for their times, which there is for fewer than `2 ^ 60`;
otherwise there is a panic. A suite goes along the plan that has the message, the header, one
measurement and one line per benchmark in the order of the list, and an empty line. Each stops at
the first event that fails, with its failure, and tries nothing behind it; the lines written are
those of the events before. -/
theorem Harness.follows_plan (harness : Harness) {lines : ω → List String}
    (hsink : sink.KeepsLines lines) :
    (∀ (benchmark : Benchmark σ) (state : σ) (written : ω),
      ∃ measurement, harness.Measures benchmark measurement ∧
        match harness.measure benchmark state with
        | .ok report left => report = measurement.report ∧
            History sink measurement.events (state, written) (left, written)
        | .error failure left => ∃ done,
            Stops sink measurement.events done (state, written) failure (left, written)) ∧
    (∀ (message : String) (benchmarks : List (Benchmark σ)) (start : σ × ω),
      ∃ measured, List.Forall₂ harness.Measures benchmarks measured ∧
        match harness.runSuite sink message benchmarks start with
        | .ok reports final => reports = measured.map Measurement.report ∧
            History sink (suite message measured) start final ∧
            lines final.2 = lines start.2 ++ (suite message measured).filterMap Event.line?
        | .error failure final => ∃ done,
            Stops sink (suite message measured) done start failure final ∧
            lines final.2 = lines start.2 ++ done.filterMap Event.line?) ∧
    ∀ (count : Nat) (start : σ × ω) (failure : Failure) (final : σ × ω),
      Event.Fails sink (.reserve count) start failure final ↔
        2 ^ 60 ≤ count ∧ failure = .panicked .capacityOverflow ∧ final = start := by
  refine ⟨fun benchmark state written ↦ ?_, fun message benchmarks start ↦ ?_,
    fun count start failure final ↦ Event.fails_reserve_iff⟩
  · have halong : Along sink _ (beside (harness.measure benchmark)) :=
      harness.along_measure benchmark
    obtain ⟨plan, report, ⟨measurement, hmeasures, rfl, rfl⟩, hfollows⟩ := halong (state, written)
    refine ⟨measurement, hmeasures, ?_⟩
    simp only [beside, onPart] at hfollows
    cases houtcome : harness.measure benchmark state with
    | ok report left =>
        rw [houtcome] at hfollows
        exact hfollows
    | error failure left =>
        rw [houtcome] at hfollows
        exact hfollows
  · obtain ⟨plan, reports, ⟨measured, hmeasured, rfl, rfl⟩, hfollows⟩ :=
      harness.along_runSuite message benchmarks start
    refine ⟨measured, hmeasured, ?_⟩
    cases houtcome : harness.runSuite sink message benchmarks start with
    | ok reports final =>
        rw [houtcome] at hfollows
        exact ⟨hfollows.1, hfollows.2, hsink.of_history hfollows.2⟩
    | error failure final =>
        rw [houtcome] at hfollows
        obtain ⟨done, hstops⟩ := hfollows
        exact ⟨done, hstops, hsink.of_stops hstops⟩

/-- A sink that has room for three lines. -/
def threeLines : LineSink (List String) := fun line written ↦
  if written.length < 3 then .ok () (written ++ [line]) else .error "writer full" written

/-- A benchmark that counts its runs, fails when a number of runs is reached, and reports on extents
as large as the number of its runs. -/
def wornOutBy (limit : Nat) : Benchmark Nat where
  opcode _ := 3
  dtype _ := .f64
  extents count := [count]
  setUp := fun count ↦ .ok () count
  run := fun count ↦
    if count < limit then .ok 7 (count + 1) else .error (.raised (.internal "worn out")) count

theorem keepsLines_threeLines : threeLines.KeepsLines id where
  of_ok {line written longer} h := by
    unfold threeLines at h
    split at h
    · cases h
      rfl
    · cases h
  of_error {line reason written left} h := by
    unfold threeLines at h
    split at h
    · cases h
    · cases h
      rfl

/-- The first benchmark is run three times and reported on. The second one fails in its second run,
so that neither its line nor the empty one is written. -/
theorem Harness.follows_plan_wornOut :
    threeLines.KeepsLines id ∧
      ∃ measured done, List.Forall₂ (Harness.mk 1 2).Measures [wornOutBy 4, wornOutBy 4] measured ∧
        Stops threeLines (suite "runs" measured) done (0, []) (.raised (.internal "worn out"))
          (4, ["runs", tableHeader, (Report.ofSamples 3 .f64 [3] [7, 7]).line]) ∧
        done.filterMap Event.line? =
          ["runs", tableHeader, (Report.ofSamples 3 .f64 [3] [7, 7]).line] := by
  obtain ⟨measured, hmeasured, houtcome⟩ :=
    ((Harness.mk 1 2).follows_plan keepsLines_threeLines).2.1 "runs" [wornOutBy 4, wornOutBy 4]
      (0, [])
  have hrun : (Harness.mk 1 2).runSuite threeLines "runs" [wornOutBy 4, wornOutBy 4] (0, []) =
      .error (.raised (.internal "worn out"))
        (4, ["runs", tableHeader, (Report.ofSamples 3 .f64 [3] [7, 7]).line]) := rfl
  rw [hrun] at houtcome
  obtain ⟨done, hstops, hlines⟩ := houtcome
  exact ⟨keepsLines_threeLines, measured, done, hmeasured, hstops, hlines.symm⟩

/-- A benchmark of which every run fails is not run even once if `2 ^ 60` times are to be taken:
there is a panic in place of the error of the first run. -/
theorem Harness.measure_capacityOverflow :
    (Harness.mk 0 (2 ^ 60)).measure (wornOutBy 0) 0 = .error (.panicked .capacityOverflow) 0 ∧
      (wornOutBy 0).setUp 0 = .ok () 0 ∧
      (wornOutBy 0).run 0 = .error (.raised (.internal "worn out")) 0 :=
  ⟨rfl, rfl, rfl⟩

end ArrayEngine.Benchmark
