import ArrayEngine.DType
import ArrayEngine.Text.Listing

/-!
# Benchmark reports

A report sums up the times of one benchmark, in microseconds, by their mean and their median, and
is printed as one line of a table with tabs between the columns.
-/

namespace ArrayEngine.Benchmark

/-- The first line of a table of reports. -/
def tableHeader : String :=
  "OpNum\tDataType\tShape\tavg (us)\tmedian (us)"

/-- The times of one benchmark, summed up. -/
structure Report where
  opcode : Nat
  dtype : DType
  extents : List Nat
  /-- The mean time, cut down to whole microseconds. -/
  mean : Nat
  /-- The median time; of two middle ones, the longer. -/
  median : Nat
  deriving DecidableEq, Repr

namespace Report

/-- The mean of a list of times, cut down to a whole number. -/
def meanOf (samples : List Nat) : Nat :=
  samples.foldl (· + ·) 0 / samples.length

/-- The time at the middle of the sorted list; zero if there are no times. -/
def medianOf (samples : List Nat) : Nat :=
  (samples.mergeSort (· ≤ ·)).getD (samples.length / 2) 0

/-- The report of a list of times. Without times both numbers are zero. -/
def ofSamples (opcode : Nat) (dtype : DType) (extents samples : List Nat) : Report :=
  { opcode, dtype, extents, mean := meanOf samples, median := medianOf samples }

/-- The line of a report in a table. -/
def line (report : Report) : String :=
  String.intercalate "\t"
    [toString report.opcode, report.dtype.name, Text.bracketed report.extents,
     toString report.mean, toString report.median]

end Report

end ArrayEngine.Benchmark
