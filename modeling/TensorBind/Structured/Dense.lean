import TensorBind.Fault
import TensorBind.Literal
import TensorBind.Number.Reading

/-!
# Tensor types and dense attributes

The structured form spells a shape as a tensor type, such as
`tensor<2x3xf32>`, and gives a constant as a **dense attribute**, aotc's
`DenseAttr`: a list of elements each of which is a truth value, an integer or
a floating-point number of its own. The elements are converted to the element
type of the tensor when the attribute is materialized as a literal
(`Dense.toLiteral`). A single element is a splat, which stands for as many as
the tensor holds.
-/

namespace TensorBind

-- Powers are the core library's, also where other instances are in sight.
attribute [local instance (2000)] instPowNat

namespace Shape

/-- **The text of aotc's `TensorType`.** -/
def renderTensor (s : Shape) : String :=
  "tensor<" ++ String.join (s.dims.map fun d => toString d.toInt ++ "x")
    ++ s.elementType.tensorName ++ ">"

end Shape

namespace Structured

/-- **aotc's `ScalarAttr`**: an element of a dense attribute. -/
inductive DenseElement where
  /-- A truth value. -/
  | bool (value : Bool)
  /-- An integer. -/
  | int (value : Int64)
  /-- A floating-point number. -/
  | float (value : Binary Format.binary64)
deriving DecidableEq

namespace DenseElement

/-- **aotc's `scalar_attr`**: reads a word for a truth value, else an integer,
else a floating-point number. -/
def read? (token : List Char) : Option DenseElement :=
  if token = "true".toList then some (bool true)
  else if token = "false".toList then some (bool false)
  else match Integer.readInt64 token with
    | .ok n => some (int n)
    | .error _ => (Binary.read? Format.binary64 token).map float

/-- The text of an element. A floating-point number keeps its point. -/
def render : DenseElement → String
  | bool b => cond b "true" "false"
  | int n => toString n.toInt
  | float x => x.pointed

/-- The text of an element with its kind, as errors quote it. -/
def describe : DenseElement → String
  | e@(bool _) => "Bool(" ++ e.render ++ ")"
  | e@(int _) => "Int(" ++ e.render ++ ")"
  | e@(float _) => "Float(" ++ e.render ++ ")"

/-- An integer as a truth value: only zero and one are. -/
def predOfInt? (n : Int64) : Option Bool :=
  if n = 0 then some false else if n = 1 then some true else none

/-- An integer in 32 bits, if it fits. -/
def int32OfInt? (n : Int64) : Option Int32 :=
  if -2 ^ (31 : Nat) ≤ n.toInt ∧ n.toInt < 2 ^ (31 : Nat) then
    some (Int32.ofInt n.toInt)
  else none

/-- **Converts an element to an element type**, where its value is one of the
type. -/
def convert? : (t : ElementType) → DenseElement → Option t.Value
  | .pred, bool b => some b
  | .pred, int n => predOfInt? n
  | .s32, int n => int32OfInt? n
  | .s64, int n => some n
  | .f32, int n => some (Binary.ofInt Format.binary32 n.toInt)
  | .f32, float x => some (Binary.convert Format.binary32 x)
  | .f64, int n => some (Binary.ofInt Format.binary64 n.toInt)
  | .f64, float x => some x
  | _, _ => none

/-- Numerical equality of two elements. -/
def agrees : DenseElement → DenseElement → Bool
  | float x, float y => x.sameNumber y
  | a, b => decide (a = b)

end DenseElement

/-- Why a dense attribute is not a literal of a type. -/
inductive DenseError where
  /-- The type is too large to be materialized. -/
  | tooLarge (type : Shape)
  /-- There are more or fewer elements than the type holds. -/
  | countMismatch (count : Nat) (type : Shape)
  /-- An element is none of the type. -/
  | invalidElement (element : DenseElement) (type : Shape)
  /-- The elements were refused by the shape. -/
  | literal (cause : Literal.Error)
deriving DecidableEq

namespace DenseError

/-- The wording of each cause. -/
def reason : DenseError → String
  | tooLarge type =>
    "dense attribute of type " ++ type.renderTensor ++ " is too large"
  | countMismatch count type =>
    "dense attribute with " ++ toString count ++ " elements does not fit "
      ++ type.renderTensor
  | invalidElement element type =>
    element.describe ++ " is not a valid element of " ++ type.renderTensor
  | literal cause => cause.reason

/-- The kind of each cause; a cause of `Literal` has its own. -/
def kind : DenseError → FaultKind
  | literal cause => cause.kind
  | _ => .lowering

/-- The fault a caller is shown. -/
def toFault (e : DenseError) : Fault := ⟨e.kind, e.reason⟩

end DenseError

/-- **aotc's `DenseAttr`**: elements in row-major order, or a splat. -/
abbrev Dense := List DenseElement

namespace Dense

/-- The elements for a number of places: a splat is repeated, any other number
of elements has to be that of the places. -/
def spread (elements : Dense) (count : Nat) : Option Dense :=
  match elements with
  | [only] => some (List.replicate count only)
  | _ => if elements.length = count then some elements else none

/-- Converts elements in order, or returns the first that cannot be
converted. -/
def convertAll (t : ElementType) :
    List DenseElement → Except DenseElement (List t.Value)
  | [] => .ok []
  | element :: rest =>
    match element.convert? t with
    | none => .error element
    | some value => (convertAll t rest).map (value :: ·)

/-- **aotc's `to_literal`**: materializes an attribute as a literal of a
type. -/
def toLiteral (elements : Dense) (type : Shape) :
    Except DenseError Literal :=
  if type.literalByteSize.isNone then .error (.tooLarge type)
  else match spread elements type.elementCount with
    | none => .error (.countMismatch elements.length type)
    | some spreadOut =>
      match convertAll type.elementType spreadOut with
      | .error element => .error (.invalidElement element type)
      | .ok values =>
        (Literal.ofElements type ⟨type.elementType, values⟩).mapError .literal

end Dense

end Structured

end TensorBind
