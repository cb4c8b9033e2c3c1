import ArrayEngine.Arithmetic

/-!
# Dividing work into chunks

The indices below a total are divided into consecutive chunks, one per worker. The lengths of the
chunks differ by at most one, and the longer chunks come first. `divide` gives these chunks;
`partition` hands them out one after another, in the arithmetic of a build, to a list for which it
has made room before. A list for as many workers as a machine has threads always has room.
-/

namespace ArrayEngine

/-- Consecutive indices that one worker takes. -/
structure Chunk where
  offset : Nat
  length : Nat
  deriving DecidableEq, Repr

namespace Chunk

/-- One past the last index. -/
def stop (chunk : Chunk) : Nat :=
  chunk.offset + chunk.length

/-- Chunks of given lengths, one behind the other. -/
def consecutive : Nat → List Nat → List Chunk
  | _, [] => []
  | start, length :: rest => ⟨start, length⟩ :: consecutive (start + length) rest

/-- The lengths of `count` chunks that together have `total` indices. -/
def evenLengths (total count : Nat) : List Nat :=
  List.replicate (total % count) (total / count + 1) ++
    List.replicate (count - total % count) (total / count)

/-- The number of bytes that a chunk takes. -/
def bytes : Nat := 16

/-- The chunks of `more` workers from a given one on, if the indices below the offset are handed out
already. The first `left` workers take one index more than the others. -/
def allot {m : Type → Type} [Monad m] (arithmetic : Arithmetic m) (share left : Nat) :
    Nat → Nat → Nat → m (List Chunk)
  | 0, _, _ => pure []
  | more + 1, worker, offset => do
      let length ← arithmetic.add share (if worker < left then 1 else 0)
      let next ← arithmetic.add offset length
      let rest ← allot arithmetic share left more (worker + 1) next
      pure (⟨offset, length⟩ :: rest)

@[simp] theorem map_length_consecutive (start : Nat) (lengths : List Nat) :
    (consecutive start lengths).map Chunk.length = lengths := by
  induction lengths generalizing start with
  | nil => rfl
  | cons length rest ih => simp [consecutive, ih]

/-- There are as many lengths as chunks are asked for. -/
theorem length_evenLengths (total : Nat) {count : Nat} (h : 0 < count) :
    (evenLengths total count).length = count := by
  have hmod := Nat.mod_lt total h
  simp only [evenLengths, List.length_append, List.length_replicate]
  omega

end Chunk

/-- The number of chunks into which work is divided: the budget, but at least one, and no more than
there are indices. -/
def chunkCount (total budget : Nat) : Nat :=
  Nat.max 1 (Nat.min budget total)

/-- The chunks into which the indices below `total` are divided for a budget of workers. -/
def divide (total budget : Nat) : List Chunk :=
  if total = 0 then []
  else Chunk.consecutive 0 (Chunk.evenLengths total (chunkCount total budget))

/-- Hands out the indices below `total` to one worker after another, for a budget of workers. -/
def partition (arithmetic : Arithmetic (Except Panic)) (total budget : Nat) :
    Except Panic (List Chunk) :=
  if total = 0 then .ok []
  else do
    let count := chunkCount total budget
    reserve count Chunk.bytes
    Chunk.allot arithmetic (total / count) (total % count) count 0 0

end ArrayEngine
