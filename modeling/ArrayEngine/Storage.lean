import ArrayEngine.Platform
import ArrayEngine.Scalar
import ArrayEngine.Size
import ArrayEngine.Text.Listing

/-!
# Element buffers

A `Storage` is a flat buffer of elements of one type. A caller states the type in which it wants to
see the cells, and a wrong type is an error. `gather` and `scatter` read and write the cells at a
list of offsets.
-/

namespace ArrayEngine

/-- The cells at a list of offsets. An offset outside the buffer has no cell. -/
def gather {α : Type} (cells : Array α) (offsets : List Nat) : List α :=
  offsets.filterMap (cells[·]?)

/-- The buffer after values were written, one after another, to the cells at a list of offsets. -/
def scatter {α : Type} (cells : Array α) (offsets : List Nat) (values : List α) : Array α :=
  (offsets.zip values).foldl (fun cells (offset, value) ↦ cells.setIfInBounds offset value) cells

/-- If every offset lies within the buffer, no offset is left out. -/
theorem length_gather {α : Type} {cells : Array α} {offsets : List Nat}
    (h : ∀ offset ∈ offsets, offset < cells.size) :
    (gather cells offsets).length = offsets.length := by
  induction offsets with
  | nil => rfl
  | cons offset rest ih =>
      have hoffset := h offset (by simp)
      have hrest := ih fun o ho ↦ h o (by simp [ho])
      simp [gather, hoffset] at hrest ⊢
      exact hrest

/-- Writing cells keeps the size of the buffer. -/
@[simp] theorem size_scatter {α : Type} (cells : Array α) (offsets : List Nat) (values : List α) :
    (scatter cells offsets values).size = cells.size := by
  unfold scatter
  induction offsets.zip values generalizing cells with
  | nil => rfl
  | cons write rest ih => simp [ih]

/-- A buffer of elements of one type. -/
structure Storage where
  dtype : DType
  cells : Array (Scalar dtype)
  deriving DecidableEq

namespace Storage

/-- A buffer of `count` zeros. It fails if its size in bytes is no size, or is more than the machine
gives to one buffer. -/
def zeroed (platform : Platform) (count : Nat) (dtype : DType) : Except Error Storage :=
  match Size.mul? count dtype.bytes with
  | none => .error (.outOfMemory Size.largest)
  | some bytes =>
      if platform.bufferLimit < bytes then .error (.outOfMemory bytes)
      else .ok ⟨dtype, Array.replicate count (.ofPattern dtype 0)⟩

/-- A buffer of these elements. It fails as a buffer of as many zeros does. -/
def ofList (platform : Platform) {dtype : DType} (values : List (Scalar dtype)) :
    Except Error Storage := do
  let _ ← zeroed platform values.length dtype
  pure ⟨dtype, values.toArray⟩

/-- The number of elements. -/
def size (storage : Storage) : Nat :=
  storage.cells.size

/-- The number of bytes that the elements take. -/
def byteSize (storage : Storage) : Nat :=
  storage.size * storage.dtype.bytes

/-- The bytes of the elements, the lowest byte of each element first. -/
def toBytes (storage : Storage) : List Nat :=
  storage.cells.toList.flatMap fun cell ↦
    (List.range storage.dtype.bytes).map fun place ↦ cell.pattern >>> (8 * place) % 256

/-- The cells, seen as elements of the stated type. -/
def cells? (storage : Storage) (dtype : DType) : Except Error (Array (Scalar dtype)) :=
  if h : storage.dtype = dtype then .ok (h ▸ storage.cells)
  else .error (.typeMismatch dtype storage.dtype)

@[simp] theorem cells?_self (dtype : DType) (cells : Array (Scalar dtype)) :
    (Storage.mk dtype cells).cells? dtype = .ok cells := by
  simp [cells?]

/-- The buffer after a change of its cells, seen as elements of the stated type. -/
def modify? (storage : Storage) (dtype : DType)
    (change : Array (Scalar dtype) → Array (Scalar dtype)) : Except Error Storage :=
  (storage.cells? dtype).map fun cells ↦ ⟨dtype, change cells⟩

/-- The buffer as messages show it. -/
def describe (storage : Storage) : String :=
  Text.record "Storage" [("len", toString storage.size), ("dtype", storage.dtype.label)]

end Storage

end ArrayEngine
