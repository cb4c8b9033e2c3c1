import ArrayEngine.Arithmetic
import ArrayEngine.Layout.Index

/-!
# Walking through the elements

A cursor yields the offsets of consecutive elements. It finds the coordinates of the first one by
division and from there on counts: one step along the fastest axis, and a carry into the next axis
when an axis is exhausted. At a carry it steps one stride behind the end of an axis before it takes
the whole axis back, and how a sum that is no size is treated there is up to the build: the walk
takes the arithmetic as a parameter. `toList` is the walk of a build without checks.
-/

namespace ArrayEngine

/-- A place in the walk through the elements of a layout. -/
structure Cursor where
  /-- The axes from the fastest to the slowest. -/
  walk : List Axis
  /-- The coordinates of the next element, in the same order. -/
  digits : List Nat
  /-- The offset of the next element. -/
  offset : Nat
  /-- The number of elements that are still to come. -/
  remaining : Nat
  deriving DecidableEq, Repr

/-- The walk through `count` elements from the element `start` on. -/
def Indexer.cursor (indexer : Indexer) (start count : Nat) : Cursor :=
  if count = 0 then ⟨indexer.walk, [], 0, 0⟩
  else ⟨indexer.walk, indexer.digits start, indexer.offsetOf start, count⟩

namespace Cursor

section

variable {m : Type → Type} [Monad m] (arithmetic : Arithmetic m)

/-- The digits and the offset of the next element. -/
def advance : List Axis → List Nat → Nat → m (List Nat × Nat)
  | axis :: walk, digit :: digits, offset => do
      let next ← arithmetic.add digit 1
      let stepped ← arithmetic.add offset axis.stride
      if next < axis.extent then pure (next :: digits, stepped)
      else
        let whole ← arithmetic.mul axis.stride axis.extent
        let left ← arithmetic.sub stepped whole
        let (carried, last) ← advance walk digits left
        pure (0 :: carried, last)
  | _, digits, offset => pure (digits, offset)

/-- The cursor behind its next element, with `more` elements still to come. Behind the last element
the cursor stays where it is. -/
def step (cursor : Cursor) (more : Nat) : m Cursor :=
  if more = 0 then pure { cursor with remaining := 0 }
  else do
    let (digits, offset) ← advance arithmetic cursor.walk cursor.digits cursor.offset
    pure { cursor with digits, offset, remaining := more }

/-- The offset of the next element and the cursor behind it, if there is a next element. -/
def next? (cursor : Cursor) : m (Option (Nat × Cursor)) :=
  match cursor.remaining with
  | 0 => pure none
  | more + 1 => do
      let rest ← cursor.step arithmetic more
      pure (some (cursor.offset, rest))

/-- The offsets of at most `count` elements from the cursor on. -/
def take : Nat → Cursor → m (List Nat)
  | 0, _ => pure []
  | count + 1, cursor => do
      match ← cursor.next? arithmetic with
      | none => pure []
      | some (offset, rest) => do
          let offsets ← take count rest
          pure (offset :: offsets)

/-- The offsets of all elements that are still to come. -/
def collect (cursor : Cursor) : m (List Nat) :=
  take arithmetic cursor.remaining cursor

end

/-- The least and the greatest number of elements that are still to come. -/
def bounds (cursor : Cursor) : Nat × Option Nat :=
  (cursor.remaining, some cursor.remaining)

/-- The offsets of all elements that are still to come, with offsets modulo `2 ^ 64`. -/
def toList (cursor : Cursor) : List Nat :=
  Id.run (cursor.collect .wrapping)

theorem remaining_step (cursor : Cursor) (more : Nat) :
    (Id.run (cursor.step .wrapping more)).remaining = more := by
  unfold step
  split
  · rename_i hzero
    exact hzero.symm
  · rfl

/-- A cursor yields as many offsets as it says. -/
@[simp] theorem length_toList (cursor : Cursor) : cursor.toList.length = cursor.remaining := by
  unfold toList collect
  induction h : cursor.remaining generalizing cursor with
  | zero => rfl
  | succ more ih =>
      have hstep := ih (Id.run (cursor.step .wrapping more)) (remaining_step cursor more)
      simpa [take, next?, h] using hstep

end Cursor

/-- The offsets of all elements of a layout, in the order of the elements. -/
def Layout.offsets (layout : Layout) : List Nat :=
  ((Indexer.ofLayout layout).cursor 0 layout.size).toList

end ArrayEngine
