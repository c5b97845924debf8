import TensorBind.Element

/-!
# Array shapes

A shape is an element type and a list of dimensions. Dimensions are signed
words of 64 bits, as in aotc's `Shape`; a negative one holds no elements.

Sizes are counted in words of 64 bits, in two ways. `elementCount` and
`byteSize` saturate: a size past the largest word is the largest word.
`checkedByteSize` refuses instead, dimension by dimension, when one is
negative or a product so far no longer fits. `literalByteSize` also
refuses what is too large to be materialized on the host.
-/

namespace TensorBind

-- Powers are the core library's, also where other instances are in sight.
attribute [local instance (2000)] instPowNat

/-- The largest word of 64 bits, at which sizes saturate. -/
def largestSize : Nat := 2 ^ (64 : Nat) - 1

/-- A product that stops at the largest size. -/
def saturatingMul (a b : Nat) : Nat := min largestSize (a * b)

/-- A product that must not pass the largest size. -/
def checkedMul? (a b : Nat) : Option Nat :=
  if a * b ≤ largestSize then some (a * b) else none

/-- A sum that must not pass the largest size. -/
def checkedAdd? (a b : Nat) : Option Nat :=
  if a + b ≤ largestSize then some (a + b) else none

/-- **aotc's `Shape`**: an element type and dimensions. Without dimensions it
is a scalar. -/
structure Shape where
  /-- The type of the elements. -/
  elementType : ElementType
  /-- The dimensions, outermost first. -/
  dims : List Int64
deriving DecidableEq

namespace Shape

/-- aotc's `MAX_LITERAL_BYTES`: the size of the largest array that may be
materialized on the host. -/
def maxLiteralBytes : Nat := 2 ^ (31 : Nat)

/-- The shape of one element. -/
def scalar (t : ElementType) : Shape := ⟨t, []⟩

/-- How many dimensions there are. -/
def rank (s : Shape) : Nat := s.dims.length

/-- Whether the shape is that of one element. -/
def isScalar (s : Shape) : Bool := s.dims.isEmpty

/-- **aotc's `element_count`**: how many elements an array of the shape holds,
saturating; a negative dimension holds none. -/
def elementCount (s : Shape) : Nat :=
  s.dims.foldl (fun count d => saturatingMul count d.toNatClampNeg) 1

/-- aotc's `byte_size`: how many bytes an array of the shape takes,
saturating. -/
def byteSize (s : Shape) : Nat :=
  saturatingMul s.elementCount s.elementType.byteWidth

/-- A size that has not saturated is exact. -/
theorem elementCount_mul_of_byteSize_lt {s : Shape}
    (h : s.byteSize < largestSize) :
    s.elementCount * s.elementType.byteWidth = s.byteSize := by
  rw [byteSize, saturatingMul] at h ⊢
  omega

/-- One step of the checked count: the dimension must not be negative and
the product must fit. -/
def checkedStep? (count : Nat) (d : Int64) : Option Nat :=
  if d < 0 then none else checkedMul? count d.toNatClampNeg

/-- **aotc's `checked_byte_size`**: the size in bytes, or nothing if a
dimension is negative or a product of the dimensions so far does not fit. -/
def checkedByteSize (s : Shape) : Option Nat := do
  let count ← s.dims.foldlM checkedStep? 1
  checkedMul? count s.elementType.byteWidth

/-- aotc's `literal_byte_size`: the size in bytes, if an array of the shape
may be materialized on the host. -/
def literalByteSize (s : Shape) : Option Nat :=
  s.checkedByteSize.filter (· ≤ maxLiteralBytes)

/-- The text of a shape, such as `s32[2,3]`. -/
def render (s : Shape) : String :=
  s.elementType.name ++ "["
    ++ ",".intercalate (s.dims.map fun d => toString d.toInt) ++ "]"

end Shape

end TensorBind
