/-!
# Binary floating-point numbers

A binary format has a sign bit, a field of exponent bits and a field of
fraction bits. Every finite number of a format is a whole multiple of the
format's least positive number, its **unit**, so the arithmetic below is
arithmetic of natural numbers: `Format.units` says how many units a
magnitude field stands for, `Format.one` says how many units make one, and
`Format.nearest` takes a quotient of units back to the magnitude field of
the nearest number, a tie going to the even field.

The magnitude field is the number without its sign bit. It orders the
non-negative numbers of the format, infinity is the first field past the
finite ones, and the fields past infinity are the NaNs. Because the fields
of consecutive numbers are consecutive, a carry out of the fraction lands
in the exponent by itself, and rounding needs no case for it.

A number is kept as its bits (`Binary`). A zero keeps its sign and a NaN
its payload, and two numbers are equal in Lean exactly when their bits are.
The comparison that arithmetic makes is `Binary.sameNumber`, for which the
two zeros agree and a NaN agrees with nothing.
-/

namespace TensorBind

-- Powers are the core library's, also where other instances are in sight.
attribute [local instance (2000)] instPowNat

/-- The whole number nearest to `num / den`, a tie going to the even
one. -/
def divNearest (num den : Nat) : Nat :=
  let quotient := num / den
  let twice := 2 * (num % den)
  if twice < den ∨ (twice = den ∧ quotient % 2 = 0) then quotient
  else quotient + 1

/-- **A binary interchange format**: how many bits hold the fraction and
how many hold the exponent. -/
structure Format where
  /-- Bits of the fraction field; the leading bit of a significand is not
  among them. -/
  fractionBits : Nat
  /-- Bits of the exponent field. -/
  exponentBits : Nat
deriving DecidableEq

namespace Format

/-- The 32-bit format. -/
def binary32 : Format := ⟨23, 8⟩

/-- The 64-bit format. -/
def binary64 : Format := ⟨52, 11⟩

variable (F : Format)

/-- Bits of the magnitude field: everything but the sign. -/
def magnitudeBits : Nat := F.exponentBits + F.fractionBits

/-- Bits of a number of the format. -/
def width : Nat := F.magnitudeBits + 1

/-- How many units make one. -/
def one : Nat := 2 ^ (2 ^ (F.exponentBits - 1) - 2 + F.fractionBits)

/-- The magnitude field of infinity, the first that is not finite. -/
def infinity : Nat := (2 ^ F.exponentBits - 1) * 2 ^ F.fractionBits

/-- The magnitude field of the NaN that operations return. -/
def quietNaN : Nat := F.infinity + 2 ^ (F.fractionBits - 1)

/-- The significand of a magnitude field. A field below `2 ^ fractionBits`
is its own significand; any other has the leading bit in front of its
fraction. -/
def significand (field : Nat) : Nat :=
  if field < 2 ^ F.fractionBits then field
  else 2 ^ F.fractionBits + field % 2 ^ F.fractionBits

/-- How many doublings lie between the significand of a field and its
number of units. -/
def scale (field : Nat) : Nat := field / 2 ^ F.fractionBits - 1

/-- **How many units a magnitude field stands for.** -/
def units (field : Nat) : Nat := F.significand field * 2 ^ F.scale field

/-- **The magnitude field nearest to `num / den` units**, a tie going to
the even field. The quotient is first divided by the power of two that
leaves a significand of full length; what it rounds to and the number of
halvings taken are the two parts of the field, whose sum is right also
when rounding carries into the next power of two. A quotient too large for
the format gives infinity. -/
def nearest (num den : Nat) : Nat :=
  let halvings := Nat.log2 (num / den) - F.fractionBits
  min F.infinity
    (divNearest num (den * 2 ^ halvings) + halvings * 2 ^ F.fractionBits)

end Format

/-- **A number of a binary format**, kept as its bits. -/
structure Binary (F : Format) where
  /-- Sign, exponent and fraction, the sign on top. -/
  bits : BitVec F.width
deriving DecidableEq

namespace Binary

variable {F G : Format}

/-- The number with the given bits, as a natural number. -/
def ofBits (F : Format) (bits : Nat) : Binary F := ⟨BitVec.ofNat _ bits⟩

/-- The bits of a number, as a natural number. -/
def toBits (x : Binary F) : Nat := x.bits.toNat

/-- The number with a given sign and magnitude field. -/
def ofMagnitude (F : Format) (negative : Bool) (field : Nat) : Binary F :=
  ofBits F ((if negative then 2 ^ F.magnitudeBits else 0) + field)

/-- Whether the sign bit is set. -/
def negative (x : Binary F) : Bool := decide (2 ^ F.magnitudeBits ≤ x.toBits)

/-- The bits without the sign. -/
def magnitude (x : Binary F) : Nat := x.toBits % 2 ^ F.magnitudeBits

/-- Whether the bits stand for no number at all. -/
def isNaN (x : Binary F) : Bool := decide (F.infinity < x.magnitude)

/-- Whether the number is one of the two infinities. -/
def isInfinite (x : Binary F) : Bool := decide (x.magnitude = F.infinity)

/-- Whether the number is one of the two zeros. -/
def isZero (x : Binary F) : Bool := decide (x.magnitude = 0)

/-- How many units a finite number is away from zero. -/
def units (x : Binary F) : Nat := F.units x.magnitude

/-- The NaN that operations return. -/
def nan (F : Format) : Binary F := ofMagnitude F false F.quietNaN

/-- The infinity of a given sign. -/
def infinite (F : Format) (negative : Bool) : Binary F :=
  ofMagnitude F negative F.infinity

/-- The zero of a given sign. -/
def zero (F : Format) (negative : Bool) : Binary F := ofMagnitude F negative 0

/-- The number of a given sign nearest to `num / den` units. -/
def nearest (F : Format) (negative : Bool) (num den : Nat) : Binary F :=
  ofMagnitude F negative (F.nearest num den)

/-! ## Order -/

/-- The place of a number in the order of its format. It is the magnitude
field with the sign applied, so both zeros have place zero. -/
def place (x : Binary F) : Int :=
  if x.negative then -(x.magnitude : Int) else x.magnitude

/-- **Numerical equality**: the two zeros agree, and a NaN agrees with
nothing, itself included. -/
def sameNumber (x y : Binary F) : Bool :=
  !x.isNaN && !y.isNaN && decide (x.place = y.place)

/-- The larger of two numbers. A NaN gives way to the other operand. -/
def max (x y : Binary F) : Binary F :=
  if x.isNaN then y
  else if y.isNaN then x
  else if x.place < y.place then y else x

/-- The smaller of two numbers. A NaN gives way to the other operand. -/
def min (x y : Binary F) : Binary F :=
  if x.isNaN then y
  else if y.isNaN then x
  else if y.place < x.place then y else x

/-! ## Arithmetic

Each operation first settles NaNs and infinities and then rounds one exact
quotient of units. -/

/-- The number with its sign turned round. -/
def neg (x : Binary F) : Binary F := ofMagnitude F (!x.negative) x.magnitude

/-- The number with its sign cleared. -/
def abs (x : Binary F) : Binary F := ofMagnitude F false x.magnitude

/-- The units of a finite number, with its sign. -/
def signedUnits (x : Binary F) : Int :=
  if x.negative then -(x.units : Int) else x.units

/-- **The rounded sum.** A sum that is exactly zero is negative only when
both operands are. -/
def add (x y : Binary F) : Binary F :=
  if x.isNaN || y.isNaN then nan F
  else if x.isInfinite then
    if y.isInfinite && x.negative != y.negative then nan F else x
  else if y.isInfinite then y
  else
    let sum := x.signedUnits + y.signedUnits
    if sum = 0 then zero F (x.negative && y.negative)
    else nearest F (decide (sum < 0)) sum.natAbs 1

/-- The rounded difference. -/
def sub (x y : Binary F) : Binary F :=
  if y.isNaN then nan F else x.add y.neg

/-- **The rounded product.** -/
def mul (x y : Binary F) : Binary F :=
  let negative := x.negative != y.negative
  if x.isNaN || y.isNaN then nan F
  else if x.isInfinite || y.isInfinite then
    if x.isZero || y.isZero then nan F else infinite F negative
  else nearest F negative (x.units * y.units) F.one

/-- **The rounded quotient.** A nonzero number over a zero is infinite. -/
def div (x y : Binary F) : Binary F :=
  let negative := x.negative != y.negative
  if x.isNaN || y.isNaN then nan F
  else if x.isInfinite then
    if y.isInfinite then nan F else infinite F negative
  else if y.isInfinite then zero F negative
  else if y.isZero then
    if x.isZero then nan F else infinite F negative
  else nearest F negative (x.units * F.one) y.units

/-- **The remainder of the quotient cut towards zero.** It is exact and
has the sign of the dividend; a finite number is its own remainder by an
infinite one. -/
def rem (x y : Binary F) : Binary F :=
  if x.isNaN || y.isNaN || x.isInfinite || y.isZero then nan F
  else if y.isInfinite then x
  else nearest F x.negative (x.units % y.units) 1

/-! ## Conversions -/

/-- The number of the format nearest to an integer. -/
def ofInt (F : Format) (n : Int) : Binary F :=
  nearest F (decide (n < 0)) (n.natAbs * F.one) 1

/-- **The number of another format nearest to this one.** -/
def convert (G : Format) (x : Binary F) : Binary G :=
  if x.isNaN then ofMagnitude G x.negative G.quietNaN
  else if x.isInfinite then infinite G x.negative
  else nearest G x.negative (x.units * G.one) F.one

end Binary

end TensorBind
