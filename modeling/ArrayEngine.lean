import ArrayEngine.Operation.Builtin
import ArrayEngine.Benchmark.Reduction
import ArrayEngine.Proofs.Layout.Coordinates
import ArrayEngine.Proofs.Layout.Addressable
import ArrayEngine.Proofs.Layout.Cursor
import ArrayEngine.Proofs.Layout.AxisSplit
import ArrayEngine.Proofs.Parallel.Partition
import ArrayEngine.Proofs.Reduction.Engine
import ArrayEngine.Proofs.Reduction.Slices
import ArrayEngine.Proofs.Scalar
import ArrayEngine.Proofs.Reduction.Integer
import ArrayEngine.Proofs.Tensor
import ArrayEngine.Proofs.Operation.Executor
import ArrayEngine.Proofs.Reduction.OutputExtents
import ArrayEngine.Proofs.Operation.Builtin
import ArrayEngine.Proofs.Operation.IntegerReduction
import ArrayEngine.Proofs.Operation.Failure
import ArrayEngine.Proofs.Layout.SplitSuccess
import ArrayEngine.Proofs.Layout.SplitFailure
import ArrayEngine.Proofs.Layout.UniformStride
import ArrayEngine.Proofs.Reduction.Agreement
import ArrayEngine.Proofs.Operation.LayoutIndependence
import ArrayEngine.Proofs.Reduction.Staged
import ArrayEngine.Proofs.Operation.StagedReduction
import ArrayEngine.Proofs.Tensor.Write
import ArrayEngine.Proofs.Tensor.Fit
import ArrayEngine.Proofs.Tensor.Transpose
import ArrayEngine.Proofs.Tensor.Packed
import ArrayEngine.Proofs.Operation.Parameters
import ArrayEngine.Proofs.Operation.Writes
import ArrayEngine.Proofs.Operation.BoundOutput
import ArrayEngine.Proofs.Operation.NoAxes
import ArrayEngine.Proofs.Operation.Conversion
import ArrayEngine.Proofs.Operation.AllAxes
import ArrayEngine.Proofs.Operation.Inference
import ArrayEngine.Proofs.Reduction.Reads
import ArrayEngine.Proofs.Reduction.Views
import ArrayEngine.Proofs.Operation.Reachable
import ArrayEngine.Proofs.Operation.Frame
import ArrayEngine.Proofs.Operation.Repetition
import ArrayEngine.Proofs.Layout.ElementNumbers
import ArrayEngine.Proofs.Layout.CheckedCursor
import ArrayEngine.Proofs.Layout.Reshaped
import ArrayEngine.Proofs.Layout.Broadcast
import ArrayEngine.Proofs.Layout.NestedStrides
import ArrayEngine.Proofs.Operation.Registry
import ArrayEngine.Proofs.Operation.InPlace
import ArrayEngine.Proofs.Operation.RequestedType
import ArrayEngine.Proofs.Operation.AxisOrder
import ArrayEngine.Proofs.Parallel.Budget
import ArrayEngine.Proofs.Parallel.Tiling
import ArrayEngine.Proofs.Reduction.Calls
import ArrayEngine.Proofs.Benchmark.Harness
import ArrayEngine.Proofs.Text.Listing
import ArrayEngine.Proofs.Benchmark.Report
import ArrayEngine.Proofs.Reduction.Converted
import ArrayEngine.Proofs.Operation.ConvertedReduction
