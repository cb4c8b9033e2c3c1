import ArrayEngine.Benchmark.Report
import ArrayEngine.Size
import ArrayEngine.Update

/-!
# The benchmark harness

A benchmark acts on a state: it is set up once and then run many times, and each run says how many
microseconds it took. Setting up and running may fail, and leave a state behind all the same. What a
report names as the operation, the element type and the extents is read from the state behind the
last run. The harness measures one benchmark, or a whole suite of them on a common state while it
writes a table of the reports line by line. The first failure, of a benchmark or of a line, ends
everything; so does a number of runs for whose times there can be no list.
-/

namespace ArrayEngine

/-- A benchmark that acts on a state of type `σ`. -/
structure Benchmark (σ : Type) where
  /-- The number of the operation that a report names. -/
  opcode : σ → Nat
  /-- The element type that a report names. -/
  dtype : σ → DType
  /-- The extents that a report names. -/
  extents : σ → List Nat
  /-- Prepares the runs. -/
  setUp : EStateM Failure σ Unit
  /-- Runs once and gives the time that it took, in microseconds. -/
  run : EStateM Failure σ Nat

namespace Benchmark

variable {σ τ ω α : Type}

/-- An action on a part of a state as an action on the state. -/
def onPart (get : τ → σ) (put : σ → τ → τ) (action : EStateM Failure σ α) :
    EStateM Failure τ α :=
  fun state ↦
    match action (get state) with
    | .ok result part => .ok result (put part state)
    | .error failure part => .error failure (put part state)

/-- A benchmark that acts on a part of a larger state. -/
def focus (get : τ → σ) (put : σ → τ → τ) (benchmark : Benchmark σ) : Benchmark τ where
  opcode state := benchmark.opcode (get state)
  dtype state := benchmark.dtype (get state)
  extents state := benchmark.extents (get state)
  setUp := onPart get put benchmark.setUp
  run := onPart get put benchmark.run

/-- Runs a benchmark a number of times and collects the times. -/
def runTimes (benchmark : Benchmark σ) : Nat → EStateM Failure σ (List Nat)
  | 0 => pure []
  | more + 1 => do
      let time ← benchmark.run
      let times ← benchmark.runTimes more
      pure (min time Size.largest :: times)

/-- How often a benchmark is run. -/
structure Harness where
  /-- The number of runs before times are taken. -/
  warmups : Nat := 5
  /-- The number of runs whose times are taken. -/
  runs : Nat := 100
  deriving DecidableEq, Repr

/-- Writes a line, or gives the reason why it cannot. A write that fails may leave a part of the
line behind. -/
abbrev LineSink (ω : Type) := String → EStateM String ω Unit

namespace Harness

/-- The number of bytes that a time takes. -/
def sampleBytes : Nat := 8

/-- Sets a benchmark up, runs it and reports the times. Room for all times is made in front of the
first run that is timed. -/
def measure (harness : Harness) (benchmark : Benchmark σ) : EStateM Failure σ Report := do
  benchmark.setUp
  let _ ← benchmark.runTimes harness.warmups
  reserve harness.runs sampleBytes
  let samples ← benchmark.runTimes harness.runs
  let state ← get
  pure (.ofSamples (benchmark.opcode state) (benchmark.dtype state) (benchmark.extents state)
    samples)

/-- A line of the table cannot be written. -/
def notWritten (reason : String) : Error :=
  .internal ("writing benchmark report: " ++ reason)

/-- Writes a line of the table. -/
def writeLine (sink : LineSink ω) (line : String) : EStateM Failure (σ × ω) Unit :=
  fun (state, written) ↦
    match sink line written with
    | .ok () written => .ok () (state, written)
    | .error reason written => .error (.raised (notWritten reason)) (state, written)

/-- Measures a list of benchmarks and writes the line of each report before the next benchmark is
set up. -/
def measureAll (harness : Harness) (sink : LineSink ω) :
    List (Benchmark σ) → EStateM Failure (σ × ω) (List Report)
  | [] => pure []
  | benchmark :: rest => do
      let report ← onPart Prod.fst (fun state (_, written) ↦ (state, written))
        (harness.measure benchmark)
      writeLine sink report.line
      let reports ← harness.measureAll sink rest
      pure (report :: reports)

/-- Measures a suite of benchmarks and writes a table: the message, if there is one, the header, a
line per report and an empty line. -/
def runSuite (harness : Harness) (sink : LineSink ω) (message : String)
    (benchmarks : List (Benchmark σ)) : EStateM Failure (σ × ω) (List Report) := do
  if message ≠ "" then
    writeLine sink message
  writeLine sink tableHeader
  let reports ← harness.measureAll sink benchmarks
  writeLine sink ""
  pure reports

end Harness

end Benchmark

end ArrayEngine
