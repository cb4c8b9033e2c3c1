import ArrayEngine.Layout.AxisSplit
import ArrayEngine.Parallel.Partition
import ArrayEngine.Parallel.Workers
import ArrayEngine.Reduction.Strategy
import ArrayEngine.Storage

/-!
# The reduction engine

One engine serves every strategy. It divides the elements into one chunk per worker, folds each
chunk from the seed on, joins the accumulators in the order of the chunks and finalizes once. A
result hence depends on the number of chunks only as far as the strategy does.

`reduce` reduces the elements that a view selects from a buffer; `reduceAlong` reduces an array
along a split of its axes, slice by slice. The chunks are those that `partition` hands out to the
workers; it has room for them, as there are no more than the machine has threads. The list of the
results may have any length here, also one for which a machine has no room (`listLimit`).
-/

namespace ArrayEngine

/-- Which cells of a buffer are reduced, and in which order. -/
inductive View where
  /-- Element `i` is the cell `base + i · stride`, for `i` below `size`. -/
  | strided (base stride size : Nat)
  /-- Element `i` is the cell `base` plus the offset of `i` in the layout of the indexer. -/
  | indexed (base : Nat) (indexer : Indexer)
  deriving DecidableEq

namespace View

/-- The view of all elements of an indexed layout. It is strided if the layout has a uniform stride,
so that no offset has to be looked up. -/
def ofIndexer (indexer : Indexer) (base : Nat) : View :=
  match indexer.layout.uniformStride with
  | some stride => .strided base stride indexer.size
  | none => .indexed base indexer

/-- The view of all elements of a layout, with the first one at `base` if it lies at offset zero. -/
def ofLayout (layout : Layout) (base : Nat) : View :=
  ofIndexer (.ofLayout layout) base

/-- The number of elements. -/
def size : View → Nat
  | strided _ _ size => size
  | indexed _ indexer => indexer.size

/-- The view has a uniform stride. -/
def isStrided : View → Bool
  | strided _ _ _ => true
  | indexed _ _ => false

/-- The offsets of the elements of a chunk. -/
def offsets (chunk : Chunk) : View → List Nat
  | strided base stride _ => List.range' (base + chunk.offset * stride) chunk.length stride
  | indexed base indexer =>
      (indexer.cursor chunk.offset chunk.length).toList.map (base + ·)

end View

section

variable {α β γ : Type}

/-- The accumulator of the elements that a view selects for one chunk. -/
def foldChunk (strategy : Strategy α β γ) (cells : Array α) (view : View) (chunk : Chunk) : β :=
  strategy.fold (gather cells (view.offsets chunk))

/-- Reduces the elements that a view selects to one result, with as many workers as the caller asks
for, if it does. Without elements the seed is finalized. -/
def reduce (workers : Workers) (strategy : Strategy α β γ) (cells : Array α) (view : View)
    (requested : Option Nat) : γ :=
  if view.size = 0 then strategy.finalize strategy.seed 0
  else
    let chunks := divide view.size (workers.budget requested view.size)
    strategy.finalize (strategy.mergeAll (chunks.map (foldChunk strategy cells view))) view.size

/-- Reduces an array along a split of its axes. Without chosen axes every element is reduced by
itself, in the order of the layout; with all axes there is one result; otherwise there is one result
per slice. -/
def reduceAlong (workers : Workers) (strategy : Strategy α β γ) (cells : Array α)
    (layout : Layout) (requested : Option Nat) : AxisSplit → List γ
  | .elements =>
      (gather cells layout.offsets).map fun element ↦
        strategy.finalize (strategy.combine strategy.seed element) 1
  | .whole => [reduce workers strategy cells (.ofLayout layout 0) requested]
  | .slices slices =>
      slices.bases.map fun base ↦
        reduce workers strategy cells (.ofLayout slices.layout base) requested

end

end ArrayEngine
