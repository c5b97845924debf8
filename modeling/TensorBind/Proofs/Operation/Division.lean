import TensorBind.Proofs.Literal

/-!
# Integer division

Integers are signed words that wrap around. Their division rounds towards
zero, and no operands make it fail: a quotient by zero is `-1`, and the
remainder is then the dividend.

What a quotient and a remainder are is said of numbers (`IsDivision`) and
proved for words of every width (`division_words`), of which the two integer
types are instances (`BinaryOp.exists_division`). The operations on whole
lists of integers fit together: multiplying the quotients by the divisors and
adding the remainders gives the dividends again
(`BinaryOp.divide_remainder_restore`). That needs no condition on the
operands. Where the divisor is zero the product vanishes, and the one quotient
that is no word, of the least word by `-1`, is off by a multiple of what words
wrap around at.
-/

namespace TensorBind

/-! ## Numbers -/

/-- **A quotient `q` and a remainder `r`** of `x` by `y`, for signed words
that wrap around at `modulus`. -/
structure IsDivision (modulus : Nat) (x y q r : Int) : Prop where
  /-- By zero the quotient is `-1` and the remainder is the dividend. -/
  by_zero : y = 0 → q = -1 ∧ r = x
  /-- The quotient is the truncated one, wrapped around. -/
  quotient_eq : y ≠ 0 → q = (x.tdiv y).bmod modulus
  /-- The remainder is less than the divisor. -/
  remainder_lt : y ≠ 0 → |r| < |y|
  /-- The remainder has the sign of the dividend, unless it is zero. -/
  remainder_sign : y ≠ 0 → r = 0 ∨ r.sign = x.sign

namespace IsDivision

variable {modulus : Nat} {x y : Int}

theorem of_zero : IsDivision modulus x 0 (-1) x where
  by_zero _ := ⟨rfl, rfl⟩
  quotient_eq h := absurd rfl h
  remainder_lt h := absurd rfl h
  remainder_sign h := absurd rfl h

/-- **Truncated division** by any other number. -/
theorem of_ne_zero (hy : y ≠ 0) :
    IsDivision modulus x y ((x.tdiv y).bmod modulus) (x.tmod y) where
  by_zero h := absurd h hy
  quotient_eq _ := rfl
  remainder_lt _ := by
    rw [Int.abs_eq_natAbs, Int.abs_eq_natAbs, Int.natAbs_tmod, Int.ofNat_lt]
    exact Nat.mod_lt _ (Int.natAbs_pos.mpr hy)
  remainder_sign _ := by
    by_cases hdvd : y ∣ x
    · exact .inl (Int.tmod_eq_zero_of_dvd hdvd)
    · exact .inr ((Int.sign_tmod x y).trans (if_neg hdvd))

end IsDivision

/-! ## Words -/

section Words

variable {w : Nat}

/-- **Quotient times divisor plus remainder** is the dividend. A quotient
that has wrapped around is off by a multiple of the modulus, and so is its
product with the divisor. -/
theorem sdiv_mul_add_srem (x y : BitVec w) :
    x.sdiv y * y + x.srem y = x := by
  apply BitVec.eq_of_toInt_eq
  calc (x.sdiv y * y + x.srem y).toInt
      = ((x.toInt.tdiv y.toInt).bmod (2 ^ w) * y.toInt
          + x.toInt.tmod y.toInt).bmod (2 ^ w) := by
        rw [BitVec.toInt_add, BitVec.toInt_mul, BitVec.toInt_sdiv,
          BitVec.toInt_srem, Int.bmod_add_bmod]
    _ = (x.toInt.tdiv y.toInt * y.toInt
          + x.toInt.tmod y.toInt).bmod (2 ^ w) := by
        rw [← Int.bmod_add_bmod, Int.bmod_mul_bmod, Int.bmod_add_bmod]
    _ = x.toInt := by rw [Int.tdiv_mul_add_tmod, BitVec.toInt_bmod_cancel]

/-- **Division of words of any width**, by zero and by anything else. -/
theorem division_words {x y q r : BitVec w}
    (hzero : y = 0#w → q.toInt = -1 ∧ r = x)
    (hne : y ≠ 0#w → q = x.sdiv y ∧ r = x.srem y) :
    q * y + r = x ∧ IsDivision (2 ^ w) x.toInt y.toInt q.toInt r.toInt := by
  by_cases hy : y = 0#w
  · obtain ⟨hq, rfl⟩ := hzero hy
    rw [hy, hq, BitVec.toInt_zero, BitVec.mul_zero, BitVec.zero_add]
    exact ⟨rfl, .of_zero⟩
  · obtain ⟨rfl, rfl⟩ := hne hy
    refine ⟨sdiv_mul_add_srem x y, ?_⟩
    rw [BitVec.toInt_sdiv, BitVec.toInt_srem]
    refine .of_ne_zero fun h => hy (BitVec.eq_of_toInt_eq ?_)
    rw [h, BitVec.toInt_zero]

end Words

/-! ## Values -/

namespace ElementType

/-- How many bits a value takes. -/
def bitWidth (t : ElementType) : Nat := 8 * t.byteWidth

/-- **The signed number that the bits of a value make**: of an integer, the
integer itself. -/
def signed (t : ElementType) (value : t.Value) : Int :=
  (t.toWord value : Int).bmod (2 ^ t.bitWidth)

theorem signed_s32 (n : Int32) : signed .s32 n = n.toInt :=
  (BitVec.toInt_eq_toNat_bmod n.toBitVec).symm

theorem signed_s64 (n : Int64) : signed .s64 n = n.toInt :=
  (BitVec.toInt_eq_toNat_bmod n.toBitVec).symm

end ElementType

namespace BinaryOp

/-- **Division of 32-bit integers**: the four operations fit together, and
they are those of the numbers. -/
theorem division_onInt32 (x y : Int32) :
    add.onInt32 (multiply.onInt32 (divide.onInt32 x y) y)
        (remainder.onInt32 x y) = x
      ∧ IsDivision (2 ^ 32) x.toInt y.toInt (divide.onInt32 x y).toInt
        (remainder.onInt32 x y).toInt := by
  have hwords := division_words (x := x.toBitVec) (y := y.toBitVec)
    (q := (divide.onInt32 x y).toBitVec)
    (r := (remainder.onInt32 x y).toBitVec) ?_ ?_
  · exact ⟨Int32.toBitVec_inj.mp hwords.1, hwords.2⟩
  · intro hy
    obtain rfl : y = 0 := Int32.toBitVec_inj.mp hy
    exact ⟨rfl, rfl⟩
  · intro hy
    have hne : y ≠ 0 := fun h => hy (congrArg Int32.toBitVec h)
    rw [onInt32, onInt32, if_neg hne, if_neg hne]
    exact ⟨Int32.toBitVec_div, Int32.toBitVec_mod⟩

/-- **Division of 64-bit integers.** -/
theorem division_onInt64 (x y : Int64) :
    add.onInt64 (multiply.onInt64 (divide.onInt64 x y) y)
        (remainder.onInt64 x y) = x
      ∧ IsDivision (2 ^ 64) x.toInt y.toInt (divide.onInt64 x y).toInt
        (remainder.onInt64 x y).toInt := by
  have hwords := division_words (x := x.toBitVec) (y := y.toBitVec)
    (q := (divide.onInt64 x y).toBitVec)
    (r := (remainder.onInt64 x y).toBitVec) ?_ ?_
  · exact ⟨Int64.toBitVec_inj.mp hwords.1, hwords.2⟩
  · intro hy
    obtain rfl : y = 0 := Int64.toBitVec_inj.mp hy
    exact ⟨rfl, rfl⟩
  · intro hy
    have hne : y ≠ 0 := fun h => hy (congrArg Int64.toBitVec h)
    rw [onInt64, onInt64, if_neg hne, if_neg hne]
    exact ⟨Int64.toBitVec_div, Int64.toBitVec_mod⟩

/-- **Every integer type has a division** whose operations fit together. -/
theorem exists_division {t : ElementType} (ht : t.isIntegral) :
    ∃ sum product quotient rest : t.Value → t.Value → t.Value,
      add.result? t = some sum ∧ multiply.result? t = some product
      ∧ divide.result? t = some quotient ∧ remainder.result? t = some rest
      ∧ ∀ x y, sum (product (quotient x y) y) (rest x y) = x
        ∧ IsDivision (2 ^ t.bitWidth) (t.signed x) (t.signed y)
          (t.signed (quotient x y)) (t.signed (rest x y)) := by
  cases t with
  | s32 =>
    refine ⟨_, _, _, _, rfl, rfl, rfl, rfl, fun (x y : Int32) => ?_⟩
    simp only [ElementType.signed_s32]
    exact division_onInt32 x y
  | s64 =>
    refine ⟨_, _, _, _, rfl, rfl, rfl, rfl, fun (x y : Int64) => ?_⟩
    simp only [ElementType.signed_s64]
    exact division_onInt64 x y
  | pred | f32 | f64 => cases ht

/-! ## Lists of values -/

/-- What restores each dividend restores a list of them. -/
theorem zipWith_restore {α : Type} {sum product quotient rest : α → α → α}
    (h : ∀ x y, sum (product (quotient x y) y) (rest x y) = x)
    {a b : List α} (hlength : a.length = b.length) :
    List.zipWith sum
      (List.zipWith product (List.zipWith quotient a b) b)
      (List.zipWith rest a b) = a := by
  induction a generalizing b with
  | nil => rfl
  | cons x a ih =>
    cases b with
    | nil => cases hlength
    | cons y b =>
      simp only [List.zipWith_cons_cons]
      rw [h, ih (Nat.succ.inj hlength)]

/-- **Integer division never fails, and quotients and remainders fit
together.** Lists of integers of one type and of one length have quotients
and remainders. Multiplying the quotients by the divisors and adding the
remainders gives the dividends again, whatever the divisors are. Place by
place, a quotient is the truncated one, wrapped around, and a remainder is
less than the divisor and has the sign of the dividend; by zero they are
`-1` and the dividend. -/
theorem divide_remainder_restore {t : ElementType} (ht : t.isIntegral)
    {a b : List t.Value} (hlength : a.length = b.length) :
    ∃ q r p : List t.Value,
      divide.onElements ⟨t, a⟩ ⟨t, b⟩ = .ok ⟨t, q⟩
      ∧ remainder.onElements ⟨t, a⟩ ⟨t, b⟩ = .ok ⟨t, r⟩
      ∧ multiply.onElements ⟨t, q⟩ ⟨t, b⟩ = .ok ⟨t, p⟩
      ∧ add.onElements ⟨t, p⟩ ⟨t, r⟩ = .ok ⟨t, a⟩
      ∧ q.length = a.length ∧ r.length = a.length
      ∧ ∀ i < a.length, ∃ x y u v, a[i]? = some x ∧ b[i]? = some y
        ∧ q[i]? = some u ∧ r[i]? = some v
        ∧ IsDivision (2 ^ t.bitWidth) (t.signed x) (t.signed y)
          (t.signed u) (t.signed v) := by
  obtain ⟨sum, product, quotient, rest, hsum, hproduct, hquotient, hrest,
    hdivision⟩ := exists_division ht
  have hzip : ∀ f : t.Value → t.Value → t.Value,
      (List.zipWith f a b).length = a.length := by
    intro f
    rw [List.length_zipWith, ← hlength, Nat.min_self]
  refine ⟨List.zipWith quotient a b, List.zipWith rest a b,
    List.zipWith product (List.zipWith quotient a b) b,
    onElements_eq_ok hquotient a b, onElements_eq_ok hrest a b,
    onElements_eq_ok hproduct _ b, ?_, hzip quotient, hzip rest, ?_⟩
  · rw [onElements_eq_ok hsum,
      zipWith_restore (fun x y => (hdivision x y).1) hlength]
  · intro i hi
    obtain ⟨x, hx⟩ : ∃ x, a[i]? = some x := ⟨_, List.getElem?_eq_getElem hi⟩
    obtain ⟨y, hy⟩ : ∃ y, b[i]? = some y :=
      ⟨_, List.getElem?_eq_getElem (hlength ▸ hi)⟩
    have hplace : ∀ f : t.Value → t.Value → t.Value,
        (List.zipWith f a b)[i]? = some (f x y) := by
      intro f
      rw [List.getElem?_zipWith, hx, hy]
    exact ⟨x, y, _, _, hx, hy, hplace quotient, hplace rest,
      (hdivision x y).2⟩

/-- Dividends of 32 bits, the greatest and the least among them. -/
def edgeDividends : List Int32 := [7, 2147483647, -7, -2147483648]

/-- A zero, two plain divisors and the one that makes a quotient wrap
around. -/
def edgeDivisors : List Int32 := [0, 1, 2, -1]

/-- By zero, exactly, rounded towards zero and wrapped around. -/
theorem edgeDividends_restore :
    ElementType.s32.isIntegral
      ∧ edgeDividends.length = edgeDivisors.length
      ∧ divide.onElements ⟨.s32, edgeDividends⟩ ⟨.s32, edgeDivisors⟩
        = .ok ⟨.s32, ([-1, 2147483647, -3, -2147483648] : List Int32)⟩
      ∧ remainder.onElements ⟨.s32, edgeDividends⟩ ⟨.s32, edgeDivisors⟩
        = .ok ⟨.s32, ([7, 0, -1, 0] : List Int32)⟩
      ∧ (∃ p, multiply.onElements
            ⟨.s32, ([-1, 2147483647, -3, -2147483648] : List Int32)⟩
            ⟨.s32, edgeDivisors⟩ = .ok ⟨.s32, p⟩
          ∧ add.onElements ⟨.s32, p⟩ ⟨.s32, ([7, 0, -1, 0] : List Int32)⟩
            = .ok ⟨.s32, edgeDividends⟩)
      ∧ IsDivision (2 ^ 32) (-2147483648) (-1) (-2147483648) 0 := by
  have hquotients :
      divide.onElements ⟨.s32, edgeDividends⟩ ⟨.s32, edgeDivisors⟩
        = .ok ⟨.s32, ([-1, 2147483647, -3, -2147483648] : List Int32)⟩ := rfl
  have hremainders :
      remainder.onElements ⟨.s32, edgeDividends⟩ ⟨.s32, edgeDivisors⟩
        = .ok ⟨.s32, ([7, 0, -1, 0] : List Int32)⟩ := rfl
  obtain ⟨q, r, p, hq, hr, hp, hsum, -, -, hplaces⟩ :=
    divide_remainder_restore (t := .s32) (a := edgeDividends)
      (b := edgeDivisors) rfl rfl
  cases hquotients.symm.trans hq
  cases hremainders.symm.trans hr
  obtain ⟨x, y, u, v, hx, hy, hu, hv, hdivision⟩ := hplaces 3 (by decide)
  cases hx
  cases hy
  cases hu
  cases hv
  simp only [ElementType.signed_s32] at hdivision
  exact ⟨rfl, rfl, hq, hr, ⟨p, hp, hsum⟩, hdivision⟩

end BinaryOp

end TensorBind
