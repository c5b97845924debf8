import TensorBind.Element
import TensorBind.Number.Reading

/-!
# Elements of constants in graph form

aotc's `parse_elements` reads a scalar token as an element of the type that
the constant is declared with. Truth values are the words `true` and `false`
or the digits `1` and `0`, integers have an optional sign and must be in
range, and a floating-point number is read at 64 bits and then narrowed if it
has to be.
-/

namespace TensorBind.Graph

/-- Reads a truth value. -/
def readPred? (token : List Char) : Option Bool :=
  if token = "true".toList ∨ token = ['1'] then some true
  else if token = "false".toList ∨ token = ['0'] then some false
  else none

/-- **Reads an element of a type.** -/
def readValue? : (t : ElementType) → List Char → Option t.Value
  | .pred, token => readPred? token
  | .s32, token => (Integer.readInt32 token).toOption
  | .s64, token => (Integer.readInt64 token).toOption
  | .f32, token =>
    (Binary.read? Format.binary64 token).map (Binary.convert Format.binary32)
  | .f64, token => Binary.read? Format.binary64 token

/-- **aotc's `parse_elements`**: reads elements of a type in order, or returns
the first token that is none. -/
def readValues (t : ElementType) :
    List (List Char) → Except (List Char) (List t.Value)
  | [] => .ok []
  | token :: rest =>
    match readValue? t token with
    | none => .error token
    | some value => (readValues t rest).map (value :: ·)

end TensorBind.Graph
