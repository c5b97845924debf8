import TensorBind.Number.Decimal
import TensorBind.Number.LittleEndian

/-!
# Element types and their values

An array holds elements of one of five types, aotc's `PrimitiveType`: truth
values, signed integers of 32 and 64 bits, and binary floating-point numbers
of 32 and 64 bits. `ElementType.Value` is the Lean type of the elements of
each, so that a list of elements carries its element type in its own type.

Elements are encoded in device memory as **words**: `toWord` gives the bits
of a value as a natural number, `ofWord` the value of given bits. A truth
value is encoded as zero or one and decoded as true from any word but zero,
which is the only place where the two are not inverse.
-/

namespace TensorBind

/-- **aotc's `PrimitiveType`**: the type of the elements of an array. -/
inductive ElementType where
  /-- Truth values. -/
  | pred
  /-- Signed 32-bit integers. -/
  | s32
  /-- Signed 64-bit integers. -/
  | s64
  /-- 32-bit floating-point numbers. -/
  | f32
  /-- 64-bit floating-point numbers. -/
  | f64
deriving DecidableEq, Repr

namespace ElementType

/-- The spelling of an element type in the graph form. -/
def name : ElementType → String
  | pred => "pred"
  | s32 => "s32"
  | s64 => "s64"
  | f32 => "f32"
  | f64 => "f64"

/-- The spelling of an element type in the structured form. -/
def tensorName : ElementType → String
  | pred => "i1"
  | s32 => "i32"
  | s64 => "i64"
  | f32 => "f32"
  | f64 => "f64"

/-- Every element type. -/
def all : List ElementType := [pred, s32, s64, f32, f64]

/-- aotc's `from_name`: the element type of a graph-form spelling. -/
def ofName? (text : String) : Option ElementType :=
  all.find? (·.name = text)

/-- aotc's `from_mlir_name`: the element type of a structured-form
spelling. -/
def ofTensorName? (text : String) : Option ElementType :=
  all.find? (·.tensorName = text)

/-- aotc's `byte_width`: the bytes that one element takes in device memory. -/
def byteWidth : ElementType → Nat
  | pred => 1
  | s32 | f32 => 4
  | s64 | f64 => 8

theorem byteWidth_pos (t : ElementType) : 0 < t.byteWidth := by
  cases t <;> decide

/-- Whether the elements are integers. -/
def isIntegral : ElementType → Bool
  | s32 | s64 => true
  | _ => false

/-- Whether the elements are floating-point numbers. -/
def isFloating : ElementType → Bool
  | f32 | f64 => true
  | _ => false

/-- **The values of an element type.** -/
def Value : ElementType → Type
  | pred => Bool
  | s32 => Int32
  | s64 => Int64
  | f32 => Binary Format.binary32
  | f64 => Binary Format.binary64

instance (t : ElementType) : DecidableEq t.Value :=
  match t with
  | pred => inferInstanceAs (DecidableEq Bool)
  | s32 => inferInstanceAs (DecidableEq Int32)
  | s64 => inferInstanceAs (DecidableEq Int64)
  | f32 => inferInstanceAs (DecidableEq (Binary Format.binary32))
  | f64 => inferInstanceAs (DecidableEq (Binary Format.binary64))

/-- The bits of a value. -/
def toWord : (t : ElementType) → t.Value → Nat
  | pred, b => Bool.toNat b
  | s32, n => Int32.toBitVec n |>.toNat
  | s64, n => Int64.toBitVec n |>.toNat
  | f32, x => Binary.toBits x
  | f64, x => Binary.toBits x

/-- The value of given bits. Any word but zero is true. -/
def ofWord : (t : ElementType) → Nat → t.Value
  | pred, n => decide (n ≠ 0)
  | s32, n => Int32.ofBitVec (BitVec.ofNat 32 n)
  | s64, n => Int64.ofBitVec (BitVec.ofNat 64 n)
  | f32, n => Binary.ofBits Format.binary32 n
  | f64, n => Binary.ofBits Format.binary64 n

/-- **The text of a value**: words for truth values, decimal integers, and
the plain text of a floating-point number. -/
def render : (t : ElementType) → t.Value → String
  | pred, b => cond b "true" "false"
  | s32, n => toString (Int32.toInt n)
  | s64, n => toString (Int64.toInt n)
  | f32, x => Binary.plain x
  | f64, x => Binary.plain x

/-- Whether two values are the same number: as floating-point numbers the
two zeros agree and a NaN agrees with nothing; elsewhere this is
equality. -/
def sameValue : (t : ElementType) → t.Value → t.Value → Bool
  | pred, a, b => decide (a = b)
  | s32, a, b => decide (a = b)
  | s64, a, b => decide (a = b)
  | f32, a, b => Binary.sameNumber a b
  | f64, a, b => Binary.sameNumber a b

end ElementType

/-- **aotc's `LiteralData`**: a list of elements together with their type. -/
structure Elements where
  /-- The type of every element. -/
  type : ElementType
  /-- The elements, in order. -/
  values : List type.Value
deriving DecidableEq

namespace Elements

/-- How many elements there are. -/
def length (e : Elements) : Nat := e.values.length

/-- aotc's `slice`: the elements as values of a given type, if that is their
type. -/
def as? (e : Elements) (t : ElementType) : Option (List t.Value) :=
  if h : e.type = t then some (h ▸ e.values) else none

end Elements

end TensorBind
