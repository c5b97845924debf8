import TensorBind.Fault
import TensorBind.Shape

/-!
# Literals

A literal, aotc's `Literal`, is an array on the host: a shape and the
elements, which by construction are of the element type of the shape and as
many as it holds. `Literal.ofElements` is where elements of any type and
number meet a shape and are refused if they do not fit it.

The byte form of a literal, `Literal.toBytes`, is the words of its elements
one after another, little-endian, each as wide as the element type;
`Literal.ofBytes` decodes it and refuses any other number of bytes than the
shape asks for.

What is in memory has fewer bytes than the largest size, at which sizes
saturate (`Literal.fits`). No literal is made of a longer list.
-/

namespace TensorBind

-- Powers are the core library's, also where other instances are in sight.
attribute [local instance (2000)] instPowNat

/-- **aotc's `Literal`**: an array on the host. -/
structure Literal where
  /-- The shape of the array. -/
  shape : Shape
  /-- Its elements, in row-major order. -/
  values : List shape.elementType.Value
  /-- There are as many elements as the shape holds. -/
  length_eq : values.length = shape.elementCount
  /-- Their bytes are fewer than the size at which sizes saturate. -/
  fits : values.length * shape.elementType.byteWidth < largestSize
deriving DecidableEq

namespace Literal

/-- Why a literal could not be made or read. -/
inductive Error where
  /-- The elements are of another type than the shape. -/
  | typeMismatch (data : ElementType) (shape : Shape)
  /-- There are more or fewer elements than the shape holds. -/
  | countMismatch (shape : Shape) (supplied : Nat)
  /-- The elements were asked for as another type. -/
  | readAs (shape : Shape) (type : ElementType)
  /-- The first of no elements was asked for. -/
  | empty (shape : Shape)
  /-- There are more or fewer bytes than the shape takes. -/
  | byteCount (shape : Shape) (held : Nat)
deriving DecidableEq

namespace Error

/-- A wrong number of bytes is a failed transfer, anything else a wrong
argument. -/
def kind : Error → FaultKind
  | byteCount .. => .transfer
  | _ => .invalidArgument

/-- The wording of each cause. -/
def reason : Error → String
  | typeMismatch data shape =>
    "literal data of type " ++ data.name ++ " does not match shape "
      ++ shape.render
  | countMismatch shape supplied =>
    "shape " ++ shape.render ++ " holds " ++ toString shape.elementCount
      ++ " elements but " ++ toString supplied ++ " were supplied"
  | readAs shape type =>
    "literal of shape " ++ shape.render ++ " read as " ++ type.name
  | empty shape => "literal of shape " ++ shape.render ++ " is empty"
  | byteCount shape held =>
    "expected " ++ toString shape.byteSize ++ " bytes for shape "
      ++ shape.render ++ " but device holds " ++ toString held

/-- The fault a caller is shown. -/
def toFault (e : Error) : Fault := ⟨e.kind, e.reason⟩

end Error

/-- aotc's `data`: the elements with their type. -/
def elements (l : Literal) : Elements := ⟨l.shape.elementType, l.values⟩

/-- aotc's `element_count` of a literal. -/
def elementCount (l : Literal) : Nat := l.values.length

/-- **aotc's `new`**: a literal of a shape and elements. Their type must be
the shape's, and their number what the shape holds. -/
def ofElements (shape : Shape) (data : Elements) : Except Error Literal :=
  if htype : data.type = shape.elementType then
    let values : List shape.elementType.Value := htype ▸ data.values
    if h : values.length = shape.elementCount
        ∧ values.length * shape.elementType.byteWidth < largestSize then
      .ok ⟨shape, values, h.1, h.2⟩
    else .error (.countMismatch shape data.length)
  else .error (.typeMismatch data.type shape)

/-- aotc's `scalar`: the literal of one element. -/
def scalar (t : ElementType) (value : t.Value) : Literal :=
  ⟨Shape.scalar t, [value], rfl, by
    show 1 * t.byteWidth < largestSize
    cases t <;> decide⟩

/-- How many bytes the elements of one list can take in memory. -/
def listCapacity : Nat := 2 ^ (63 : Nat) - 1

/-- Elements that can be in memory are counted by one dimension. -/
theorem elementCount_of_le_listCapacity {t : ElementType} {n : Nat}
    (h : n * t.byteWidth ≤ listCapacity) :
    Shape.elementCount ⟨t, [Int64.ofNat n]⟩ = n := by
  have hn : n ≤ listCapacity :=
    Nat.le_trans (Nat.le_mul_of_pos_right _ t.byteWidth_pos) h
  have hcapacity : listCapacity = 9223372036854775807 := by decide
  have hlargest : largestSize = 18446744073709551615 := by decide
  have hdimension : (Int64.ofNat n).toNatClampNeg = n := by
    rw [Int64.toNatClampNeg, Int64.toInt_ofNat_of_lt (by omega)]
    rfl
  show saturatingMul 1 (Int64.ofNat n).toNatClampNeg = n
  rw [hdimension, saturatingMul, Nat.one_mul]
  omega

/-- aotc's `vec1`: the literal of one dimension that holds the given elements,
as many as one list in memory can. -/
def vector (t : ElementType) (values : List t.Value) : Literal :=
  let held := values.take (listCapacity / t.byteWidth)
  have hheld : held.length * t.byteWidth ≤ listCapacity :=
    Nat.le_trans (Nat.mul_le_mul_right _ (List.length_take_le _ _))
      (Nat.div_mul_le_self _ _)
  ⟨⟨t, [Int64.ofNat held.length]⟩, held,
    (elementCount_of_le_listCapacity hheld).symm,
    Nat.lt_of_le_of_lt hheld (by decide)⟩

/-- aotc's `reshape`: the same elements under other dimensions. -/
def reshape (l : Literal) (dims : List Int64) : Except Error Literal :=
  ofElements ⟨l.shape.elementType, dims⟩ l.elements

/-- aotc's `to_vec`: the elements as values of a given type. -/
def toList (l : Literal) (t : ElementType) :
    Except Error (List t.Value) :=
  match l.elements.as? t with
  | some values => .ok values
  | none => .error (.readAs l.shape t)

/-- The first element, as a value of a given type; aotc's
`get_first_element`. -/
def first (l : Literal) (t : ElementType) : Except Error t.Value := do
  match ← l.toList t with
  | value :: _ => .ok value
  | [] => .error (.empty l.shape)

/-- **Numerical equality** of two literals: equal shapes and pairwise the
same numbers. -/
def agrees (a b : Literal) : Bool :=
  if h : b.shape = a.shape then
    let other : List a.shape.elementType.Value := h ▸ b.values
    a.values.length == other.length
      && (a.values.zip other).all fun (x, y) =>
        a.shape.elementType.sameValue x y
  else false

/-! ## Bytes -/

/-- **aotc's `to_bytes`**: the byte form of a literal. -/
def toBytes (l : Literal) : List UInt8 :=
  l.values.flatMap fun value =>
    littleEndian l.shape.elementType.byteWidth
      (l.shape.elementType.toWord value)

/-- Cuts the first `count` runs of `width` bytes from a list of bytes. -/
def chunks (width : Nat) : Nat → List UInt8 → List (List UInt8)
  | 0, _ => []
  | count + 1, bytes =>
    bytes.take width :: chunks width count (bytes.drop width)

/-- How many runs are cut. -/
theorem length_chunks (width count : Nat) (bytes : List UInt8) :
    (chunks width count bytes).length = count := by
  induction count generalizing bytes with
  | zero => rfl
  | succ count ih => rw [chunks, List.length_cons, ih]

/-- **aotc's `from_bytes`**: decodes the byte form of a literal of a known
shape. -/
def ofBytes (shape : Shape) (bytes : List UInt8) : Except Error Literal :=
  if h : bytes.length = shape.byteSize ∧ bytes.length < largestSize then
    .ok ⟨shape, (chunks shape.elementType.byteWidth shape.elementCount
        bytes).map fun chunk =>
          shape.elementType.ofWord (ofLittleEndian chunk),
      by rw [List.length_map, length_chunks],
      by
        rw [List.length_map, length_chunks,
          Shape.elementCount_mul_of_byteSize_lt (h.1 ▸ h.2), ← h.1]
        exact h.2⟩
  else .error (.byteCount shape bytes.length)

/-! ## Text -/

/-- The elements of a literal in words: the one element of a scalar, and a
list in braces for anything else. -/
def renderValues (l : Literal) : String :=
  match l.shape.dims, l.values with
  | [], [value] => l.shape.elementType.render value
  | _, values =>
    "\x7b" ++ ", ".intercalate (values.map l.shape.elementType.render)
      ++ "\x7d"

/-- The text of a literal, such as `s32[2] {1, 2}`. -/
def render (l : Literal) : String := l.shape.render ++ " " ++ l.renderValues

end Literal

end TensorBind
