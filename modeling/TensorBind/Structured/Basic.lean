import TensorBind.Operation
import TensorBind.Structured.Dense

/-!
# Programs in structured form

A structured program, aotc's `StructuredModule`, is a module of functions.
The values of a function are numbered: first its arguments, then the results
of its operations, one each. Operations refer to the values they read by
number, and a function returns some of its values. Value numbers are words of
32 bits.

The entry function is the one called `main`, or the only one.
-/

namespace TensorBind.Structured

/-- What an operation does, aotc's `OpKind`. -/
inductive OpKind where
  /-- A constant. -/
  | constant (value : Dense)
  /-- An operation on one value. -/
  | unary (op : UnaryOp)
  /-- An operation on two values. -/
  | binary (op : BinaryOp)
deriving DecidableEq

/-- **An operation of the structured form**, aotc's `Operation`. -/
structure Operation where
  /-- Its name with that of its dialect. -/
  name : String
  /-- The kind of the operation. -/
  kind : OpKind
  /-- The numbers of the values it reads. -/
  operands : List UInt32
  /-- The number of its result. -/
  result : UInt32
  /-- The type its result is declared with. -/
  resultType : Shape
deriving DecidableEq

/-- **A function**, aotc's `FuncOp`. -/
structure Func where
  /-- The name of the function. -/
  name : String
  /-- The types of its arguments. -/
  arguments : List Shape
  /-- The types its results are declared with. -/
  resultTypes : List Shape
  /-- Its operations, in order. -/
  body : List Operation
  /-- The numbers of the values it returns. -/
  returned : List UInt32
deriving DecidableEq

/-- **A program in structured form**, aotc's `StructuredModule`. -/
structure Module where
  /-- The name of the module, if it has one. -/
  name : Option String
  /-- Its functions. -/
  functions : List Func
deriving DecidableEq

namespace OpKind

/-- Numerical equality: constants agree element by element. -/
def agrees : OpKind → OpKind → Bool
  | constant a, constant b =>
    a.length == b.length && (a.zip b).all fun (x, y) => x.agrees y
  | a, b => decide (a = b)

end OpKind

namespace Operation

/-- Numerical equality of two operations. -/
def agrees (a b : Operation) : Bool :=
  decide (a.name = b.name) && a.kind.agrees b.kind
    && decide (a.operands = b.operands) && decide (a.result = b.result)
    && decide (a.resultType = b.resultType)

end Operation

namespace Func

/-- aotc's `value_type`: the type of a value of a function. -/
def valueType? (f : Func) (value : UInt32) : Option Shape :=
  (f.arguments ++ f.body.map Operation.resultType)[value.toNat]?

/-- Numerical equality of two functions. -/
def agrees (a b : Func) : Bool :=
  decide (a.name = b.name) && decide (a.arguments = b.arguments)
    && decide (a.resultTypes = b.resultTypes)
    && a.body.length == b.body.length
    && (a.body.zip b.body).all (fun (x, y) => x.agrees y)
    && decide (a.returned = b.returned)

end Func

namespace Module

/-- aotc's `lookup`: the first function of a name. -/
def lookup? (m : Module) (name : String) : Option Func :=
  m.functions.find? (·.name = name)

/-- **The entry function**: the one called `main`, or the only one. -/
def entry? (m : Module) : Option Func :=
  match m.lookup? "main" with
  | some main => some main
  | none =>
    match m.functions with
    | [only] => some only
    | _ => none

/-- **Numerical equality of two programs.** -/
def agrees (a b : Module) : Bool :=
  decide (a.name = b.name) && a.functions.length == b.functions.length
    && (a.functions.zip b.functions).all fun (x, y) => x.agrees y

end Module

end TensorBind.Structured
