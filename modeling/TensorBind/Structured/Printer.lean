import TensorBind.Structured.Basic

/-!
# The text of a structured program

A program is printed as a module with all its functions, the values of
each function named by their numbers. Results are always printed in
parentheses, and dense attributes of more than one element as one flat
list.
-/

namespace TensorBind.Structured

/-- The name of a value in the text of a function. -/
def renderValue (value : Nat) : String := "%v" ++ toString value

/-- Values as they are referred to, with commas between them. -/
def renderValues (values : List UInt32) : String :=
  ", ".intercalate (values.map fun value => renderValue value.toNat)

/-- Tensor types, with commas between them. -/
def renderTypes (types : List Shape) : String :=
  ", ".intercalate (types.map Shape.renderTensor)

/-- The text of a dense attribute. -/
def renderDense : Dense → String
  | [only] => "dense<" ++ only.render ++ ">"
  | elements =>
    "dense<[" ++ ", ".intercalate (elements.map DenseElement.render) ++ "]>"

namespace Operation

/-- The text between the name of an operation and its type. -/
def renderOperands (op : Operation) : String :=
  match op.kind with
  | .constant value => renderDense value
  | _ => renderValues op.operands

/-- One operation on a line of its own. -/
def render (op : Operation) : String :=
  "    " ++ renderValue op.result.toNat ++ " = " ++ op.name ++ " "
    ++ op.renderOperands ++ " : " ++ op.resultType.renderTensor ++ "\n"

end Operation

namespace Func

/-- The arguments of a function with their types. -/
def renderArguments (f : Func) : String :=
  ", ".intercalate (f.arguments.zipIdx.map fun (type, number) =>
    renderValue number ++ ": " ++ type.renderTensor)

/-- The return of a function, with the types of what it returns. -/
def renderReturn (f : Func) : String :=
  if f.returned.isEmpty then "    return\n"
  else "    return " ++ renderValues f.returned ++ " : "
    ++ renderTypes (f.returned.filterMap f.valueType?) ++ "\n"

/-- The text of a function. -/
def render (f : Func) : String :=
  "  func.func @" ++ f.name ++ "(" ++ f.renderArguments ++ ") -> ("
    ++ renderTypes f.resultTypes ++ ") \x7b\n"
    ++ String.join (f.body.map Operation.render)
    ++ f.renderReturn ++ "  \x7d\n"

end Func

namespace Module

/-- **The text of a program.** -/
def render (m : Module) : String :=
  (match m.name with
    | some name => "module @" ++ name ++ " \x7b\n"
    | none => "module \x7b\n")
    ++ String.join (m.functions.map Func.render) ++ "\x7d"

end Module

end TensorBind.Structured
