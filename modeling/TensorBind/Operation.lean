import TensorBind.Literal

/-!
# Elementwise operations

aotc's `UnaryOp` and `BinaryOp` and what its interpreter does for them.
Operations work element by element: one with a single operand maps its
elements, one with two operands pairs them up. Which element types an
operation is defined on is `UnaryOp.definedOn` and `BinaryOp.definedOn`;
what it does to values is `UnaryOp.apply` and `BinaryOp.result?`.

Integer arithmetic wraps around, and no operand makes an operation fail:
a quotient by zero is `-1` and a remainder by zero is the dividend, so
that quotient times divisor plus remainder is always the dividend again.
-/

namespace TensorBind

/-- Elementwise operations with one operand. -/
inductive UnaryOp where
  /-- The opposite number. -/
  | negate
  /-- The absolute value. -/
  | abs
  /-- Negation of a truth value, or of every bit of an integer. -/
  | not
deriving DecidableEq, Repr

/-- Elementwise operations with two operands of one shape. -/
inductive BinaryOp where
  | add
  | subtract
  | multiply
  | divide
  | remainder
  | maximum
  | minimum
  | and
  | or
deriving DecidableEq, Repr

namespace UnaryOp

/-- The name of an operation. -/
def name : UnaryOp → String
  | negate => "negate"
  | abs => "abs"
  | not => "not"

/-- Every operation with one operand. -/
def all : List UnaryOp := [negate, abs, not]

/-- aotc's `from_name`: the operation of a name. -/
def ofName? (text : String) : Option UnaryOp := all.find? (·.name = text)

/-- Which element types an operation is defined on. -/
def definedOn : UnaryOp → ElementType → Bool
  | negate, t | abs, t => t != .pred
  | not, t => t == .pred || t.isIntegral

/-- **What an operation does to a value.** Where it is not defined it
leaves the value alone. -/
def apply : UnaryOp → (t : ElementType) → t.Value → t.Value
  | negate, .s32, n => Int32.neg n
  | negate, .s64, n => Int64.neg n
  | negate, .f32, x => Binary.neg x
  | negate, .f64, x => Binary.neg x
  | abs, .s32, n => Int32.abs n
  | abs, .s64, n => Int64.abs n
  | abs, .f32, x => Binary.abs x
  | abs, .f64, x => Binary.abs x
  | not, .pred, b => Bool.not b
  | not, .s32, n => Int32.complement n
  | not, .s64, n => Int64.complement n
  | _, _, value => value

end UnaryOp

namespace BinaryOp

/-- The name of an operation. -/
def name : BinaryOp → String
  | add => "add"
  | subtract => "subtract"
  | multiply => "multiply"
  | divide => "divide"
  | remainder => "remainder"
  | maximum => "maximum"
  | minimum => "minimum"
  | and => "and"
  | or => "or"

/-- Every operation with two operands. -/
def all : List BinaryOp :=
  [add, subtract, multiply, divide, remainder, maximum, minimum, and, or]

/-- aotc's `from_name`: the operation of a name. -/
def ofName? (text : String) : Option BinaryOp := all.find? (·.name = text)

/-- aotc's `is_logical`: whether an operation works on bits rather than on
numbers. -/
def isLogical : BinaryOp → Bool
  | and | or => true
  | _ => false

/-- Which element types an operation is defined on. -/
def definedOn (op : BinaryOp) (t : ElementType) : Bool :=
  if op.isLogical then t == .pred || t.isIntegral else t != .pred

/-- What an operation does to truth values. -/
def onPred? : BinaryOp → Option (Bool → Bool → Bool)
  | and => some Bool.and
  | or => some Bool.or
  | _ => none

/-- What an operation does to 32-bit integers. -/
def onInt32 : BinaryOp → Int32 → Int32 → Int32
  | add, x, y => x + y
  | subtract, x, y => x - y
  | multiply, x, y => x * y
  | divide, x, y => if y = 0 then -1 else x / y
  | remainder, x, y => if y = 0 then x else x % y
  | maximum, x, y => max x y
  | minimum, x, y => min x y
  | and, x, y => x &&& y
  | or, x, y => x ||| y

/-- What an operation does to 64-bit integers. -/
def onInt64 : BinaryOp → Int64 → Int64 → Int64
  | add, x, y => x + y
  | subtract, x, y => x - y
  | multiply, x, y => x * y
  | divide, x, y => if y = 0 then -1 else x / y
  | remainder, x, y => if y = 0 then x else x % y
  | maximum, x, y => max x y
  | minimum, x, y => min x y
  | and, x, y => x &&& y
  | or, x, y => x ||| y

/-- What an operation does to floating-point numbers. -/
def onBinary? {F : Format} :
    BinaryOp → Option (Binary F → Binary F → Binary F)
  | add => some Binary.add
  | subtract => some Binary.sub
  | multiply => some Binary.mul
  | divide => some Binary.div
  | remainder => some Binary.rem
  | maximum => some Binary.max
  | minimum => some Binary.min
  | and | or => none

/-- **What an operation does to values**, where it is defined. -/
def result? (op : BinaryOp) :
    (t : ElementType) → Option (t.Value → t.Value → t.Value)
  | .pred => op.onPred?
  | .s32 => some op.onInt32
  | .s64 => some op.onInt64
  | .f32 => op.onBinary?
  | .f64 => op.onBinary?

end BinaryOp

/-! ## Operations on literals -/

/-- Why an operation on two literals has no result. -/
inductive OperationError where
  /-- The operands hold elements of different types. -/
  | differentTypes (op : BinaryOp) (left right : ElementType)
  /-- The operation is not defined on the type of the elements. -/
  | undefined (op : BinaryOp) (type : ElementType)
  /-- The result does not fit the shape of the left operand. -/
  | result (cause : Literal.Error)
deriving DecidableEq

namespace OperationError

/-- The wording of each cause. -/
def reason : OperationError → String
  | differentTypes op left right =>
    op.name ++ " operands have different element types " ++ left.name
      ++ " and " ++ right.name
  | undefined op type =>
    op.name ++ " is not defined on " ++ type.name
  | result cause => cause.toFault.message

end OperationError

namespace UnaryOp

/-- **The interpreter's `unary`**: applies an operation to every element. -/
def onLiteral (op : UnaryOp) (x : Literal) : Except OperationError Literal :=
  (Literal.ofElements x.shape
    ⟨x.shape.elementType,
      x.values.map (op.apply x.shape.elementType)⟩).mapError .result

end UnaryOp

namespace BinaryOp

/-- The interpreter's `binary`: applies an operation to corresponding
elements. -/
def onElements (op : BinaryOp) (x y : Elements) :
    Except OperationError Elements :=
  match y.as? x.type with
  | none => .error (.differentTypes op x.type y.type)
  | some other =>
    match op.result? x.type with
    | none => .error (.undefined op x.type)
    | some f => .ok ⟨x.type, List.zipWith f x.values other⟩

/-- **Applies an operation to corresponding elements of two literals.**
The result has the shape of the left one. -/
def onLiterals (op : BinaryOp) (x y : Literal) :
    Except OperationError Literal := do
  let data ← op.onElements x.elements y.elements
  (Literal.ofElements ⟨data.type, x.shape.dims⟩ data).mapError .result

end BinaryOp

end TensorBind
