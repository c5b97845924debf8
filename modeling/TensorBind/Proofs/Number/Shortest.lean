import TensorBind.Number.Decimal
import TensorBind.Proofs.Number.Rounding

/-!
# Shortest decimals

A decimal stands for a rational number (`Decimal.value`), and reading it
rounds that number once (`Decimal.nearest_eq`): neither zeros at the end of
the digits nor the bounds beyond which no power of ten is built make a
difference. The shortest decimal of a field therefore rounds to the field
(`Format.roundsTo_shortest`).

How far it is from the number of the field matters as well. On the grid on
which it was found it is the nearer neighbour of the number, unless the
number is just above a power of two, where the field is even
(`Format.shortest_near`).
-/

namespace TensorBind

namespace Decimal

variable {d : Decimal} {F : Format} {field : Nat}

/-- **The number a decimal stands for.** -/
def value (d : Decimal) : ℚ := d.coefficient * 10 ^ d.exponent

theorem value_nonneg (d : Decimal) : 0 ≤ d.value :=
  mul_nonneg (Nat.cast_nonneg _) (by positivity)

/-- Digits are counted as they are listed. -/
theorem digitCount_eq (n : Nat) : digitCount n = (Nat.digits 10 n).length := by
  induction n using Nat.strong_induction_on with
  | _ n ih =>
    unfold digitCount
    by_cases hn : n = 0
    · rw [if_pos hn, hn, Nat.digits_zero, List.length_nil]
    · have hpos := Nat.pos_of_ne_zero hn
      rw [if_neg hn, Nat.digits_def' (by decide) hpos, List.length_cons,
        ih (n / 10) (Nat.div_lt_self hpos (by decide))]

/-- **A decimal is below the power of ten** that its digits and its exponent
make. -/
theorem value_lt : d.value < 10 ^ (d.exponent + digitCount d.coefficient) := by
  have hdigits : d.coefficient < 10 ^ digitCount d.coefficient := by
    rw [digitCount_eq]
    exact Nat.lt_base_pow_length_digits (by decide)
  have hdigitsQ : (d.coefficient : ℚ) < 10 ^ digitCount d.coefficient := by
    exact_mod_cast hdigits
  rw [value, add_comm, zpow_add₀ (by norm_num), zpow_natCast]
  exact mul_lt_mul_of_pos_right hdigitsQ (by positivity)

/-- It is no less than the power of ten below that. -/
theorem le_value (h : d.coefficient ≠ 0) :
    10 ^ (d.exponent + digitCount d.coefficient - 1) ≤ d.value := by
  have hdigits : 10 ^ digitCount d.coefficient ≤ 10 * d.coefficient := by
    rw [digitCount_eq]
    exact Nat.base_pow_length_digits_le 10 d.coefficient (by decide) h
  have hdigitsQ : (10 ^ digitCount d.coefficient : ℚ)
      ≤ 10 * d.coefficient := by
    exact_mod_cast hdigits
  have hpow : (0 : ℚ) < 10 ^ d.exponent := by positivity
  rw [value, add_sub_assoc, add_comm, zpow_add₀ (by norm_num),
    zpow_sub₀ (by norm_num), zpow_natCast, zpow_one]
  refine mul_le_mul_of_nonneg_right ?_ hpow.le
  rw [div_le_iff₀ (by norm_num)]
  linarith

end Decimal

/-! ## Reading a decimal -/

namespace Format

/-- **A format within the bounds** beyond which a decimal is not looked at:
its numbers are not as large, and a half of the least one is not as
small. -/
structure Ample (F : Format) : Prop where
  /-- There is a fraction. -/
  fractionBits_pos : 0 < F.fractionBits
  /-- A half of the least number is above the lower bound. -/
  one_le : 2 * F.one ≤ 10 ^ 2 ^ F.exponentBits
  /-- What is taken for infinity is below the upper bound. -/
  infinity_le : F.units F.infinity ≤ F.one * 10 ^ 2 ^ F.exponentBits

theorem ample_binary32 : binary32.Ample :=
  ⟨by decide, by decide +kernel, by decide +kernel⟩

theorem ample_binary64 : binary64.Ample :=
  ⟨by decide, by decide +kernel, by decide +kernel⟩

theorem value_zero (F : Format) : F.value 0 = 0 := by
  rw [value, (F.units_of_lt (Nat.two_pow_pos _)).1, Nat.cast_zero, zero_div]

end Format

namespace Decimal

variable {d e : Decimal} {F : Format} {field : Nat}

/-- A decimal is the quotient that is rounded when it is read. -/
theorem value_ofNat (F : Format) (coefficient p : Nat) :
    value ⟨coefficient, .ofNat p⟩
      = (coefficient * 10 ^ p * F.one : Nat) / ((1 : Nat) * F.one) := by
  have hone := F.one_pos
  show (coefficient : ℚ) * 10 ^ (p : ℤ) = _
  rw [zpow_natCast]
  push_cast
  field_simp

theorem value_negSucc (F : Format) (coefficient p : Nat) :
    value ⟨coefficient, .negSucc p⟩
      = (coefficient * F.one : Nat) / ((10 ^ (p + 1) : Nat) * F.one) := by
  have hone := F.one_pos
  show (coefficient : ℚ) * 10 ^ Int.negSucc p = _
  rw [zpow_negSucc]
  push_cast
  field_simp

/-- Every decimal rounds to some field. -/
theorem exists_roundsTo (hw : 0 < F.fractionBits) (d : Decimal) :
    ∃ field, F.RoundsTo d.value field := by
  obtain ⟨coefficient, exponent⟩ := d
  cases exponent with
  | ofNat p =>
    obtain ⟨field, h, -⟩ := F.exists_roundsTo hw _ Nat.one_pos
    exact ⟨field, value_ofNat F coefficient p ▸ h⟩
  | negSucc p =>
    have hpow : 0 < 10 ^ (p + 1) := Nat.pow_pos (by decide)
    obtain ⟨field, h, -⟩ := F.exists_roundsTo hw _ hpow
    exact ⟨field, value_negSucc F coefficient p ▸ h⟩

/-- **Too small to look at** is less than a half of the least number. -/
theorem eq_zero_of_small (hF : F.Ample) (h : F.RoundsTo d.value field)
    (hsmall : d.coefficient = 0 ∨ d.exponent + digitCount d.coefficient
      < -(2 ^ F.exponentBits : Nat)) : field = 0 := by
  by_contra hne
  have hmidpoint := h.lower 0 (Nat.pos_of_ne_zero hne)
  have hlt := F.value_lt_midpoint 0
  rw [F.value_zero] at hlt
  rcases hsmall with hzero | hsmall
  · rw [value, hzero, Nat.cast_zero, zero_mul] at hmidpoint
    linarith
  · have hone : (2 * F.one : ℚ) ≤ 10 ^ 2 ^ F.exponentBits := by
      exact_mod_cast hF.one_le
    have hpos := F.one_pos
    have hvalue := calc
      d.value < 10 ^ (d.exponent + digitCount d.coefficient) := d.value_lt
      _ ≤ 10 ^ (-(2 ^ F.exponentBits : Nat) : ℤ) :=
        zpow_le_zpow_right₀ (by norm_num) hsmall.le
      _ = 1 / 10 ^ 2 ^ F.exponentBits := by
        rw [zpow_neg, zpow_natCast, one_div]
      _ ≤ 1 / (2 * F.one) := one_div_le_one_div_of_le (by linarith) hone
    rw [F.midpoint_eq, F.value_zero, Format.halfStep,
      (F.units_of_lt (Nat.two_pow_pos _)).2, pow_zero, zero_add] at hmidpoint
    linarith

/-- **Too large to look at** is no less than what is taken for infinity. -/
theorem infinity_le_of_large (hF : F.Ample) (h : F.RoundsTo d.value field)
    (hne : d.coefficient ≠ 0) (hlarge : (2 ^ F.exponentBits : Nat)
      < d.exponent + digitCount d.coefficient) : F.infinity ≤ field := by
  refine h.le_of_value_le ?_
  have hinfinity : (F.units F.infinity : ℚ)
      ≤ F.one * 10 ^ 2 ^ F.exponentBits := by
    exact_mod_cast hF.infinity_le
  calc F.value F.infinity
      ≤ 10 ^ 2 ^ F.exponentBits := by
        rw [Format.value, div_le_iff₀ F.one_pos]
        linarith
    _ = (10 : ℚ) ^ ((2 ^ F.exponentBits : Nat) : ℤ) := by
        rw [zpow_natCast]
    _ ≤ 10 ^ (d.exponent + digitCount d.coefficient - 1) :=
        zpow_le_zpow_right₀ (by norm_num) (by omega)
    _ ≤ d.value := le_value hne

/-- **Reading a decimal rounds its number**, or gives infinity if it is too
large. -/
theorem nearest_eq (hF : F.Ample) (h : F.RoundsTo d.value field) :
    d.nearest F = min F.infinity field := by
  unfold nearest
  dsimp only
  split
  · rename_i hsmall
    rw [eq_zero_of_small hF h hsmall, Nat.min_zero]
  rename_i hlook
  split
  · rename_i hlarge
    have hne : d.coefficient ≠ 0 := fun hzero => hlook (.inl hzero)
    exact (Nat.min_eq_left (infinity_le_of_large hF h hne hlarge)).symm
  · obtain ⟨coefficient, exponent⟩ := d
    cases exponent with
    | ofNat p =>
      rw [value_ofNat F] at h
      exact F.nearest_eq hF.fractionBits_pos Nat.one_pos h
    | negSucc p =>
      rw [value_negSucc F] at h
      exact F.nearest_eq hF.fractionBits_pos (Nat.pow_pos (by decide)) h

/-- **What reads as a finite field rounds to it.** -/
theorem roundsTo_of_nearest (hF : F.Ample) (hfield : field < F.infinity)
    (h : d.nearest F = field) : F.RoundsTo d.value field := by
  obtain ⟨other, hother⟩ := d.exists_roundsTo hF.fractionBits_pos
  rw [nearest_eq hF hother] at h
  obtain rfl : other = field := by omega
  exact hother

/-- Zeros at the end make no difference. -/
theorem value_trim (d : Decimal) : d.trim.value = d.value := by
  fun_induction trim d with
  | case1 d h => simp [value, h]
  | case2 d hne hzero ih =>
    rw [ih]
    have hcoefficient : (d.coefficient : ℚ) = 10 * (d.coefficient / 10 : Nat) := by
      exact_mod_cast (Nat.mul_div_cancel' (Nat.dvd_of_mod_eq_zero hzero)).symm
    simp only [value]
    rw [hcoefficient, zpow_add₀ (by norm_num), zpow_one]
    ring
  | case3 => rfl

end Decimal

/-! ## The shortest decimal -/

namespace Format

variable {F : Format} {field : Nat} {power : ℤ} {d : Decimal}

/-- **The expansion of a field is exact.** -/
theorem value_expansion (F : Format) (field : Nat) :
    (F.expansion field).value = F.value field := by
  have hone : F.one = 2 ^ Nat.log2 F.one := by
    rw [one, Nat.log2_two_pow]
  have hten : (10 : ℚ) ^ Nat.log2 F.one
      = 2 ^ Nat.log2 F.one * 5 ^ Nat.log2 F.one := by
    rw [← mul_pow]
    norm_num
  rw [expansion, Decimal.value, Format.value]
  dsimp only
  rw [zpow_neg, zpow_natCast, hten]
  push_cast
  rw [show (F.one : ℚ) = 2 ^ Nat.log2 F.one by exact_mod_cast hone]
  field_simp

/-- On which half of its unit a quotient is. -/
theorem lt_half_iff (num : Nat) {den : Nat} (hden : 0 < den) :
    ((num / den : Nat) : ℚ) ≤ num / den
      ∧ (num : ℚ) / den < (num / den : Nat) + 1
      ∧ (compare (2 * (num % den)) den = .lt
        ↔ (num : ℚ) / den < (num / den : Nat) + 1 / 2) := by
  have hpos : (0 : ℚ) < den := Nat.cast_pos.mpr hden
  have hdivision : (num : ℚ) = den * (num / den : Nat) + (num % den : Nat) := by
    exact_mod_cast (Nat.div_add_mod num den).symm
  have hrest : ((num % den : Nat) : ℚ) < den :=
    Nat.cast_lt.mpr (Nat.mod_lt num hden)
  have hnonneg : (0 : ℚ) ≤ (num % den : Nat) := Nat.cast_nonneg _
  rw [le_div_iff₀ hpos, div_lt_iff₀ hpos, div_lt_iff₀ hpos,
    Nat.compare_eq_lt]
  refine ⟨by linarith, by linarith, ?_⟩
  rw [← Nat.cast_lt (α := ℚ)]
  push_cast
  constructor
  · intro h
    linarith
  · intro h
    linarith

/-- **The grid point of a field** is the last one that is no larger than its
number, and it is the nearer one exactly if the comparison says so. -/
theorem gridPoint_spec (F : Format) (field : Nat) (power : ℤ) :
    ((F.gridPoint field power).1 : ℚ) * 10 ^ power ≤ F.value field
      ∧ F.value field < ((F.gridPoint field power).1 + 1) * 10 ^ power
      ∧ ((F.gridPoint field power).2 = .lt
        ↔ F.value field
          < ((F.gridPoint field power).1 + 1 / 2) * 10 ^ power) := by
  have hone := F.one_pos
  have hstep : (0 : ℚ) < 10 ^ power := by positivity
  -- in steps of the grid the number is the quotient that is divided
  suffices hquotient : ∃ num den : Nat, 0 < den
      ∧ F.value field = num / den * 10 ^ power
      ∧ F.gridPoint field power
        = (num / den, compare (2 * (num % den)) den) by
    obtain ⟨num, den, hden, hvalue, hpoint⟩ := hquotient
    obtain ⟨hlower, hupper, hhalf⟩ := lt_half_iff num hden
    rw [hpoint, hvalue, mul_le_mul_iff_of_pos_right hstep,
      mul_lt_mul_iff_of_pos_right hstep, mul_lt_mul_iff_of_pos_right hstep]
    exact ⟨hlower, hupper, hhalf⟩
  cases power with
  | ofNat p =>
    refine ⟨F.units field, F.one * 10 ^ p,
      Nat.mul_pos (Nat.two_pow_pos _) (Nat.pow_pos (by decide)), ?_, rfl⟩
    show _ = _ * (10 : ℚ) ^ (p : ℤ)
    rw [value, zpow_natCast]
    push_cast
    field_simp
  | negSucc p =>
    refine ⟨F.units field * 10 ^ (p + 1), F.one, Nat.two_pow_pos _, ?_, rfl⟩
    rw [value, zpow_negSucc]
    push_cast
    field_simp

/-- **The two neighbours of a number on a grid**, the nearer one first, are
tried in this order. -/
theorem readsBackAt_eq (F : Format) (field : Nat) (power : ℤ) :
    ∃ near far : Decimal, near.exponent = power ∧ far.exponent = power
      ∧ |near.value - F.value field| ≤ 10 ^ power / 2
      ∧ |near.value - F.value field| ≤ |far.value - F.value field|
      ∧ F.readsBackAt field power
        = if near.nearest F = field then some near
          else if far.nearest F = field then some far else none := by
  obtain ⟨hlower, hupper, hhalf⟩ := F.gridPoint_spec field power
  unfold readsBackAt
  generalize F.gridPoint field power = point at hlower hupper hhalf
  obtain ⟨low, side⟩ := point
  dsimp only at hlower hupper hhalf
  have hbelow : |Decimal.value ⟨low, power⟩ - F.value field|
      = F.value field - low * 10 ^ power := by
    rw [abs_sub_comm, Decimal.value, abs_of_nonneg (by linarith)]
  have habove : |Decimal.value ⟨low + 1, power⟩ - F.value field|
      = (low + 1) * 10 ^ power - F.value field := by
    rw [Decimal.value]
    push_cast
    exact abs_of_nonneg (by linarith)
  by_cases hside : side = .lt
  · have hnear := hhalf.mp hside
    refine ⟨⟨low, power⟩, ⟨low + 1, power⟩, rfl, rfl, ?_, ?_, ?_⟩
    · rw [hbelow]
      linarith
    · rw [hbelow, habove]
      linarith
    · simp only [hside, if_pos]
  · have hnear := not_lt.mp (mt hhalf.mpr hside)
    refine ⟨⟨low + 1, power⟩, ⟨low, power⟩, rfl, rfl, ?_, ?_, ?_⟩
    · rw [habove]
      linarith
    · rw [hbelow, habove]
      linarith
    · simp only [hside, if_false]

/-- **What is found on a grid** reads back. It is the nearer neighbour of
the number, or the nearer one does not read back. -/
theorem readsBackAt_eq_some (h : F.readsBackAt field power = some d) :
    d.nearest F = field ∧ d.exponent = power
      ∧ (|d.value - F.value field| ≤ 10 ^ power / 2
        ∨ ∃ e : Decimal, e.nearest F ≠ field
          ∧ |e.value - F.value field| ≤ |d.value - F.value field|) := by
  obtain ⟨near, far, hnear, hfar, hhalf, hcloser, htried⟩ :=
    F.readsBackAt_eq field power
  rw [htried] at h
  split at h
  · rename_i hreads
    cases h
    exact ⟨hreads, hnear, .inl hhalf⟩
  · rename_i hfails
    split at h
    · rename_i hreads
      cases h
      exact ⟨hreads, hfar, .inr ⟨near, hfails, hcloser⟩⟩
    · cases h

/-- The search ends on some grid, or with the expansion. -/
theorem shortestFrom_cases (F : Format) (field grids : Nat) (power : ℤ) :
    F.shortestFrom field grids power = F.expansion field
      ∨ ∃ found, F.readsBackAt field found
        = some (F.shortestFrom field grids power) := by
  induction grids generalizing power with
  | zero => exact .inl rfl
  | succ grids ih =>
    unfold shortestFrom
    cases hfound : F.readsBackAt field power with
    | some d => exact .inr ⟨power, hfound⟩
    | none => exact ih (power - 1)

/-- **The shortest decimal rounds to its field.** -/
theorem roundsTo_shortest (hF : F.Ample) (hfield : field < F.infinity) :
    F.RoundsTo (F.shortest field).value field := by
  unfold shortest
  split
  · rename_i hzero
    have hvalue : Decimal.value ⟨0, 0⟩ = F.value 0 := by
      rw [F.value_zero, Decimal.value, Nat.cast_zero, zero_mul]
    rw [hvalue, hzero]
    exact F.roundsTo_value 0
  · rw [Decimal.value_trim]
    rcases F.shortestFrom_cases field (F.fractionBits + 2)
      (F.leadingPower field) with hexact | ⟨power, hfound⟩
    · rw [hexact, F.value_expansion]
      exact F.roundsTo_value field
    · exact Decimal.roundsTo_of_nearest hF hfield
        (readsBackAt_eq_some hfound).1

/-- **The shortest decimal of an odd field** is the number of the field or
the nearest point of some grid. -/
theorem shortest_near (hF : F.Ample) (hfield : field < F.infinity)
    (hodd : Odd field) :
    (F.shortest field).value = F.value field
      ∨ ∃ (coefficient : Nat) (power : ℤ),
        (F.shortest field).value = coefficient * 10 ^ power
        ∧ |(F.shortest field).value - F.value field| ≤ 10 ^ power / 2 := by
  unfold shortest
  rw [if_neg hodd.pos.ne', Decimal.value_trim]
  rcases F.shortestFrom_cases field (F.fractionBits + 2)
    (F.leadingPower field) with hexact | ⟨power, hfound⟩
  · exact .inl (by rw [hexact, F.value_expansion])
  · obtain ⟨hreads, hpower, hnear⟩ := readsBackAt_eq_some hfound
    refine .inr ⟨_, power, by rw [Decimal.value, hpower], ?_⟩
    refine hnear.resolve_right ?_
    -- where the farther neighbour reads back, the nearer one does
    rintro ⟨e, hfails, hcloser⟩
    have hrounds := Decimal.roundsTo_of_nearest hF hfield hreads
    rw [F.roundsTo_iff_of_odd hF.fractionBits_pos hodd] at hrounds
    have hrounds' := (F.roundsTo_iff_of_odd hF.fractionBits_pos hodd).mpr
      (hcloser.trans_lt hrounds)
    refine hfails ?_
    rw [Decimal.nearest_eq hF hrounds', Nat.min_eq_right hfield.le]

end Format

end TensorBind
