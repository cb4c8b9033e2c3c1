import ArrayEngine.HalfFormat

/-!
# Element types

`DType` names the types that the elements of an array can have. The tag of a type is fixed for
good, since it is what stored arrays and bit sets refer to, and types are ordered by their tags.
-/

namespace ArrayEngine

/-- The type of the elements of an array. -/
inductive DType where
  | f64 | f32 | f16 | bf16
  | i64 | i32 | i16 | i8
  | u64 | u32 | u16 | u8
  | bool
  deriving DecidableEq, Repr, Inhabited

/-- How the bits of an element are read. -/
inductive Encoding where
  /-- A double-precision number. -/
  | double
  /-- A single-precision number. -/
  | single
  | half (format : HalfFormat)
  | integer (signed : Bool)
  | truth
  deriving DecidableEq, Repr

namespace DType

/-- Every element type, in ascending order of tags. -/
def all : List DType :=
  [f64, f32, f16, bf16, i64, i32, i16, i8, u64, u32, u16, u8, bool]

/-- The number that stands for the type: floats from 0, signed integers from 10, unsigned ones
from 20, truth values from 30. -/
def tag : DType → Nat
  | f64 => 0 | f32 => 1 | f16 => 2 | bf16 => 3
  | i64 => 10 | i32 => 11 | i16 => 12 | i8 => 13
  | u64 => 20 | u32 => 21 | u16 => 22 | u8 => 23
  | bool => 30

/-- The number of bytes that an element takes. -/
def bytes : DType → Nat
  | f64 | i64 | u64 => 8
  | f32 | i32 | u32 => 4
  | f16 | bf16 | i16 | u16 => 2
  | i8 | u8 | bool => 1

theorem bytes_pos (dtype : DType) : 0 < dtype.bytes := by
  cases dtype <;> decide

/-- The number of bits that an element takes. -/
def width (dtype : DType) : Nat :=
  8 * dtype.bytes

/-- How the bits of an element of this type are read. -/
def encoding : DType → Encoding
  | f64 => .double
  | f32 => .single
  | f16 => .half .binary16
  | bf16 => .half .bfloat16
  | i64 | i32 | i16 | i8 => .integer true
  | u64 | u32 | u16 | u8 => .integer false
  | bool => .truth

/-- The type is a floating-point type. -/
def isFloat : DType → Bool
  | f64 | f32 | f16 | bf16 => true
  | _ => false

/-- The type is a signed integer type. -/
def isSignedInt : DType → Bool
  | i64 | i32 | i16 | i8 => true
  | _ => false

/-- The type is an unsigned integer type. -/
def isUnsignedInt : DType → Bool
  | u64 | u32 | u16 | u8 => true
  | _ => false

/-- The type is an integer type. -/
def isInt (dtype : DType) : Bool :=
  dtype.isSignedInt || dtype.isUnsignedInt

/-- The type is the type of truth values. -/
def isBool : DType → Bool
  | bool => true
  | _ => false

/-- The short name of the type. -/
def name : DType → String
  | f64 => "f64" | f32 => "f32" | f16 => "f16" | bf16 => "bf16"
  | i64 => "i64" | i32 => "i32" | i16 => "i16" | i8 => "i8"
  | u64 => "u64" | u32 => "u32" | u16 => "u16" | u8 => "u8"
  | bool => "bool"

/-- The name of the type as messages show it. -/
def label : DType → String
  | f64 => "F64" | f32 => "F32" | f16 => "F16" | bf16 => "BF16"
  | i64 => "I64" | i32 => "I32" | i16 => "I16" | i8 => "I8"
  | u64 => "U64" | u32 => "U32" | u16 => "U16" | u8 => "U8"
  | bool => "Bool"

/-- The type with this short name. -/
def ofName? (name : String) : Option DType :=
  all.find? fun dtype ↦ dtype.name == name

/-- Every type occurs in the list of all types. -/
theorem mem_all (dtype : DType) : dtype ∈ all := by
  cases dtype <;> decide

/-- Distinct types have distinct tags. -/
theorem tag_injective {a b : DType} (h : a.tag = b.tag) : a = b := by
  cases a <;> cases b <;> first | rfl | exact absurd h (by decide)

/-- A type is found under its name. -/
theorem ofName?_name (dtype : DType) : ofName? dtype.name = some dtype := by
  cases dtype <;> rfl

/-- Distinct types have distinct names. -/
theorem name_injective {a b : DType} (h : a.name = b.name) : a = b :=
  Option.some.inj ((ofName?_name a).symm.trans (h ▸ ofName?_name b))

end DType

end ArrayEngine
