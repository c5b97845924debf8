import TensorBind.Number.Binary
import TensorBind.Number.Integer

/-!
# Decimal texts of binary numbers

A binary number is read from a decimal text by rounding the exact value of
the text once (`Decimal.nearest`), and it is written with **the fewest
digits that read back as the same number**, the nearest of those to the
number itself (`Format.shortest`). A candidate is accepted because it
reads back, so what is written reads back by construction; the exact
expansion, which always does, stands behind the search.

Two ways of laying out the digits are used: positional throughout
(`Binary.plain`), as the elements of a literal are written, and the layout
of a dense attribute's elements (`Binary.pointed`), which keeps a decimal
point in every number and turns to an exponent for the very large and the
very small.
-/

namespace TensorBind

-- Powers are the core library's, also where other instances are in sight.
attribute [local instance (2000)] instPowNat

/-- A non-negative decimal number, `coefficient · 10 ^ exponent`. -/
structure Decimal where
  /-- The digits, as a whole number. -/
  coefficient : Nat
  /-- The power of ten they are scaled by. -/
  exponent : Int
deriving DecidableEq

/-- How many decimal digits a number is written with; none for zero. -/
def digitCount (n : Nat) : Nat :=
  if n = 0 then 0 else digitCount (n / 10) + 1
termination_by n
decreasing_by omega

namespace Decimal

/-- **The magnitude field nearest to a decimal.** An exponent so far out
that the answer is infinity or zero whatever the digits is settled first,
without building the power of ten. -/
def nearest (F : Format) (d : Decimal) : Nat :=
  let top := d.exponent + digitCount d.coefficient
  if d.coefficient = 0 ∨ top < -(2 ^ F.exponentBits : Nat) then 0
  else if (2 ^ F.exponentBits : Nat) < top then F.infinity
  else match d.exponent with
    | .ofNat p => F.nearest (d.coefficient * 10 ^ p * F.one) 1
    | .negSucc p => F.nearest (d.coefficient * F.one) (10 ^ (p + 1))

/-- The same number with no zero at the end of its coefficient. -/
def trim (d : Decimal) : Decimal :=
  if d.coefficient = 0 then ⟨0, 0⟩
  else if d.coefficient % 10 = 0 then
    trim ⟨d.coefficient / 10, d.exponent + 1⟩
  else d
termination_by d.coefficient
decreasing_by omega

/-- The digits of the coefficient. -/
def digits (d : Decimal) : String := toString d.coefficient

end Decimal

namespace Format

variable (F : Format)

/-- The exact decimal expansion of a finite magnitude field. -/
def expansion (field : Nat) : Decimal :=
  let halvings := Nat.log2 F.one
  ⟨F.units field * 5 ^ halvings, -(halvings : Int)⟩

/-- The power of ten of the leading digit of a nonzero finite field. -/
def leadingPower (field : Nat) : Int :=
  let units := F.units field
  if F.one ≤ units then (digitCount (units / F.one) : Int) - 1
  else -(digitCount ((F.one - 1) / units) : Int)

/-- The field's neighbours among the multiples of `10 ^ power`: the one
below or at it, and twice the remainder up to it against a whole step. -/
def gridPoint (field : Nat) (power : Int) : Nat × Ordering :=
  let (num, den) := match power with
    | .ofNat p => (F.units field, F.one * 10 ^ p)
    | .negSucc p => (F.units field * 10 ^ (p + 1), F.one)
  (num / den, compare (2 * (num % den)) den)

/-- The multiple of `10 ^ power` that reads back as the field and is the
nearest to it, if one of its two neighbours does; of two equally near the
upper one. -/
def readsBackAt (field : Nat) (power : Int) : Option Decimal :=
  let (low, side) := F.gridPoint field power
  let below : Decimal := ⟨low, power⟩
  let above : Decimal := ⟨low + 1, power⟩
  let (first, second) :=
    if side = .lt then (below, above) else (above, below)
  if first.nearest F = field then some first
  else if second.nearest F = field then some second
  else none

/-- Looks for the shortest decimal on ever finer grids. -/
def shortestFrom (field : Nat) : Nat → Int → Decimal
  | 0, _ => F.expansion field
  | grids + 1, power =>
    match F.readsBackAt field power with
    | some d => d
    | none => shortestFrom field grids (power - 1)

/-- **The decimal of fewest digits that reads back as a finite field**,
the nearest to it among those. -/
def shortest (field : Nat) : Decimal :=
  if field = 0 then ⟨0, 0⟩
  else (F.shortestFrom field (F.fractionBits + 2)
    (F.leadingPower field)).trim

end Format

/-! ## Layout -/

namespace Decimal

/-- A run of zeros. -/
def zeros (n : Nat) : String := String.ofList (List.replicate n '0')

/-- **Positional notation**, with a point only if there are digits behind
it. -/
def positional (d : Decimal) : String :=
  let digits := d.digits
  match d.exponent with
  | .ofNat p => digits ++ zeros (if d.coefficient = 0 then 0 else p)
  | .negSucc p =>
    let places := p + 1
    let chars := digits.toList
    let whole := chars.length - places
    if places < chars.length then
      String.ofList (chars.take whole) ++ "."
        ++ String.ofList (chars.drop whole)
    else "0." ++ zeros (places - chars.length) ++ digits

/-- Positional notation that always has a digit behind a point. -/
def positionalPointed (d : Decimal) : String :=
  match d.exponent with
  | .ofNat _ => d.positional ++ ".0"
  | .negSucc _ => d.positional

/-- **Exponent notation**: one digit, a point only if more digits follow,
and the power of ten. -/
def scientific (d : Decimal) : String :=
  let chars := d.digits.toList
  let power := d.exponent + (chars.length : Int) - 1
  let rest := chars.drop 1
  String.ofList (chars.take 1)
    ++ (if rest.isEmpty then "" else "." ++ String.ofList rest)
    ++ "e" ++ toString power

end Decimal

namespace Binary

variable {F : Format}

/-- Writes a number with a layout for its finite magnitudes. -/
def render (layout : Decimal → String) (x : Binary F) : String :=
  if x.isNaN then "NaN"
  else
    (if x.negative then "-" else "")
      ++ if x.isInfinite then "inf" else layout (F.shortest x.magnitude)

/-- **The plain text of a number**: shortest digits, never an exponent. -/
def plain (x : Binary F) : String := x.render Decimal.positional

/-- The layout that keeps a point: positional from `10 ^ (-4)` up to but
not including `10 ^ 16`, with an exponent outside. -/
def pointedLayout (d : Decimal) : String :=
  let power := d.exponent + (d.digits.length : Int) - 1
  if d.coefficient = 0 ∨ (-4 ≤ power ∧ power < 16) then d.positionalPointed
  else d.scientific

/-- **The text of a number that keeps a point**: shortest digits, and an
exponent for the very large and the very small. -/
def pointed (x : Binary F) : String := x.render pointedLayout

end Binary

end TensorBind
