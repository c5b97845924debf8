import Mathlib
import TensorBind.Number.Binary

/-!
# Rounding to the nearest number of a format

Every magnitude field of a format stands for a rational number
(`Format.value`), fields past the finite ones included. Between the numbers
of two neighbouring fields lies their **midpoint**. A rational number
*rounds to* a field if it is between the midpoints on both sides of it and
the field is even should it be one of them (`Format.RoundsTo`). There is no
more than one such field (`Format.RoundsTo.eq`), rounding never goes past a
number of the format (`Format.RoundsTo.le_of_le_value`), and
`Format.nearest` finds the field (`Format.nearest_eq`), so that what it
gives depends on the quotient only.
-/

namespace TensorBind

/-! ## Rounding to whole numbers -/

/-- What the remainder of a division says of the nearest whole number. -/
theorem divNearest_bounds (num : Nat) {den : Nat} (hden : 0 < den) :
    2 * num ≤ (2 * divNearest num den + 1) * den
      ∧ 2 * divNearest num den * den ≤ 2 * num + den
      ∧ (2 * num = (2 * divNearest num den + 1) * den
          ∨ 2 * num + den = 2 * divNearest num den * den →
        Even (divNearest num den)) := by
  have hdivision := Nat.div_add_mod num den
  have hrest := Nat.mod_lt num hden
  have hdouble : 2 * (num / den) * den = 2 * (den * (num / den)) := by ring
  unfold divNearest
  dsimp only
  rw [Nat.even_iff]
  split
  · rename_i hbelow
    rw [Nat.add_mul, hdouble]
    omega
  · rename_i habove
    rw [Nat.add_mul, Nat.mul_add, Nat.add_mul, hdouble]
    omega

/-- **The whole number nearest to a quotient** is at most a half away from
it, and it is even if it is a half away. -/
theorem divNearest_spec (num : Nat) {den : Nat} (hden : 0 < den) :
    (divNearest num den : ℚ) - 1 / 2 ≤ num / den
      ∧ (num : ℚ) / den ≤ divNearest num den + 1 / 2
      ∧ ((num : ℚ) / den = divNearest num den - 1 / 2
          ∨ (num : ℚ) / den = divNearest num den + 1 / 2 →
        Even (divNearest num den)) := by
  obtain ⟨hupper, hlower, htie⟩ := divNearest_bounds num hden
  have hpos : (0 : ℚ) < den := Nat.cast_pos.mpr hden
  have hupperQ : (2 * num : ℚ) ≤ (2 * divNearest num den + 1) * den := by
    exact_mod_cast hupper
  have hlowerQ : (2 * divNearest num den * den : ℚ) ≤ 2 * num + den := by
    exact_mod_cast hlower
  refine ⟨(le_div_iff₀ hpos).mpr (by linarith),
    (div_le_iff₀ hpos).mpr (by linarith), ?_⟩
  rw [div_eq_iff hpos.ne', div_eq_iff hpos.ne']
  rintro (hhalf | hhalf)
  · refine htie (.inr ?_)
    have hhalfQ : (2 * num + den : ℚ) = 2 * divNearest num den * den := by
      linarith
    exact_mod_cast hhalfQ
  · refine htie (.inl ?_)
    have hhalfQ : (2 * num : ℚ) = (2 * divNearest num den + 1) * den := by
      linarith
    exact_mod_cast hhalfQ

namespace Format

variable (F : Format) {v w : ℚ} {field other k num den : Nat}

/-! ## The numbers of a format -/

/-- A field that is its own number of units. -/
theorem units_of_lt (h : field < 2 ^ F.fractionBits) :
    F.units field = field ∧ F.scale field = 0 := by
  have hscale : F.scale field = 0 := by
    rw [scale, Nat.div_eq_of_lt h]
  refine ⟨?_, hscale⟩
  rw [units, significand, if_pos h, hscale, Nat.pow_zero, Nat.mul_one]

/-- A field with a leading bit: `e` doublings of a full significand. -/
theorem units_of_full {e r : Nat} (hr : r < 2 ^ F.fractionBits) :
    F.units ((e + 1) * 2 ^ F.fractionBits + r)
        = (2 ^ F.fractionBits + r) * 2 ^ e
      ∧ F.scale ((e + 1) * 2 ^ F.fractionBits + r) = e := by
  have hpos : 0 < 2 ^ F.fractionBits := Nat.two_pow_pos _
  have hscale : F.scale ((e + 1) * 2 ^ F.fractionBits + r) = e := by
    rw [scale, Nat.mul_comm, Nat.mul_add_div hpos, Nat.div_eq_of_lt hr]
    omega
  have hfull : ¬(e + 1) * 2 ^ F.fractionBits + r < 2 ^ F.fractionBits := by
    rw [Nat.add_mul, Nat.one_mul]
    omega
  refine ⟨?_, hscale⟩
  rw [units, significand, if_neg hfull, hscale, Nat.mul_comm (e + 1),
    Nat.mul_add_mod, Nat.mod_eq_of_lt hr]

/-- Every field is of one of the two kinds. -/
theorem field_cases (field : Nat) : field < 2 ^ F.fractionBits
    ∨ ∃ e r, r < 2 ^ F.fractionBits
      ∧ field = (e + 1) * 2 ^ F.fractionBits + r := by
  have hpos : 0 < 2 ^ F.fractionBits := Nat.two_pow_pos _
  rcases Nat.lt_or_ge field (2 ^ F.fractionBits) with hlt | hge
  · exact .inl hlt
  · have hquotient := Nat.div_pos hge hpos
    refine .inr ⟨field / 2 ^ F.fractionBits - 1, field % 2 ^ F.fractionBits,
      Nat.mod_lt _ hpos, ?_⟩
    rw [Nat.sub_add_cancel hquotient, Nat.div_add_mod']

/-- **Where a run of fields stands**: `n` steps of `2 ^ h` units, for a
significand that is full unless there are no doublings. -/
theorem units_add {n h : Nat} (hn : n ≤ 2 ^ (F.fractionBits + 1))
    (hfull : h = 0 ∨ 2 ^ F.fractionBits ≤ n) :
    F.units (n + h * 2 ^ F.fractionBits) = n * 2 ^ h := by
  have hpos : 0 < 2 ^ F.fractionBits := Nat.two_pow_pos _
  rw [Nat.pow_succ] at hn
  rcases Nat.lt_or_ge n (2 ^ F.fractionBits) with hlt | hge
  · obtain rfl := hfull.resolve_right (Nat.not_le_of_lt hlt)
    rw [Nat.zero_mul, Nat.add_zero, (F.units_of_lt hlt).1, Nat.pow_zero,
      Nat.mul_one]
  rcases Nat.lt_or_ge n (2 ^ F.fractionBits * 2) with hlt | hend
  · have hr : n - 2 ^ F.fractionBits < 2 ^ F.fractionBits := by omega
    have hfield : n + h * 2 ^ F.fractionBits
        = (h + 1) * 2 ^ F.fractionBits + (n - 2 ^ F.fractionBits) := by
      rw [Nat.add_mul, Nat.one_mul]
      omega
    rw [hfield, (F.units_of_full hr).1, Nat.add_sub_cancel' hge]
  · -- the significand has carried over
    obtain rfl := Nat.le_antisymm hn hend
    have hfield : 2 ^ F.fractionBits * 2 + h * 2 ^ F.fractionBits
        = (h + 1 + 1) * 2 ^ F.fractionBits + 0 := by ring
    rw [hfield, (F.units_of_full hpos).1, Nat.add_zero, Nat.pow_succ]
    ring

/-- **The next field is one step away.** -/
theorem units_succ (field : Nat) :
    F.units (field + 1) = F.units field + 2 ^ F.scale field := by
  have hpos : 0 < 2 ^ F.fractionBits := Nat.two_pow_pos _
  have hstep : ∀ {r : Nat}, r < 2 ^ F.fractionBits →
      ¬r + 1 < 2 ^ F.fractionBits → r + 1 = 2 ^ F.fractionBits := by
    omega
  rcases F.field_cases field with hlt | ⟨e, r, hr, rfl⟩
  · rw [(F.units_of_lt hlt).1, (F.units_of_lt hlt).2, Nat.pow_zero]
    by_cases hnext : field + 1 < 2 ^ F.fractionBits
    · exact (F.units_of_lt hnext).1
    · have hfield : field + 1 = (0 + 1) * 2 ^ F.fractionBits + 0 := by
        rw [hstep hlt hnext]
        ring
      rw [hfield, (F.units_of_full hpos).1]
      ring
  · rw [(F.units_of_full hr).1, (F.units_of_full hr).2]
    by_cases hnext : r + 1 < 2 ^ F.fractionBits
    · rw [Nat.add_assoc, (F.units_of_full hnext).1]
      ring
    · have hfield : (e + 1) * 2 ^ F.fractionBits + r + 1
          = (e + 1 + 1) * 2 ^ F.fractionBits + 0 := by
        rw [Nat.add_assoc, hstep hr hnext]
        ring
      rw [hfield, (F.units_of_full hpos).1, ← hstep hr hnext, Nat.pow_succ]
      ring

/-- **The number of a magnitude field.** A field past the finite ones has
one as well, as if the format went on. -/
def value (field : Nat) : ℚ := F.units field / F.one

/-- Halfway between the numbers of a field and the next. -/
def midpoint (field : Nat) : ℚ := (F.value field + F.value (field + 1)) / 2

/-- How far it is from the number of a field to the next midpoint. -/
def halfStep (field : Nat) : ℚ := 2 ^ F.scale field / (2 * F.one)

theorem one_pos : (0 : ℚ) < F.one :=
  Nat.cast_pos.mpr (Nat.two_pow_pos _)

theorem halfStep_pos (field : Nat) : 0 < F.halfStep field :=
  div_pos (by positivity) (mul_pos two_pos F.one_pos)

theorem midpoint_eq (field : Nat) :
    F.midpoint field = F.value field + F.halfStep field := by
  have hone := F.one_pos
  rw [midpoint, value, value, halfStep, units_succ]
  push_cast
  field_simp
  ring

theorem value_succ (field : Nat) :
    F.value (field + 1) = F.value field + 2 * F.halfStep field := by
  have hmidpoint := F.midpoint_eq field
  rw [midpoint] at hmidpoint
  linarith

theorem value_strictMono : StrictMono F.value := by
  refine strictMono_nat_of_lt_succ fun field => ?_
  have hstep := F.halfStep_pos field
  rw [value_succ]
  linarith

theorem value_lt_midpoint (field : Nat) : F.value field < F.midpoint field := by
  have hstep := F.halfStep_pos field
  rw [midpoint_eq]
  linarith

theorem midpoint_lt_value (field : Nat) :
    F.midpoint field < F.value (field + 1) := by
  have hstep := F.halfStep_pos field
  rw [midpoint_eq, value_succ]
  linarith

theorem midpoint_strictMono : StrictMono F.midpoint := by
  refine strictMono_nat_of_lt_succ fun field => ?_
  exact (F.midpoint_lt_value field).trans (F.value_lt_midpoint (field + 1))

/-! ## Rounding to fields -/

/-- **A number that rounds to a field**: it is between the midpoints on
both sides, and a tie goes to the even field. -/
structure RoundsTo (v : ℚ) (field : Nat) : Prop where
  /-- All midpoints below the field are no larger. -/
  lower : ∀ k < field, F.midpoint k ≤ v
  /-- The midpoint above the field is no smaller. -/
  upper : v ≤ F.midpoint field
  /-- At a midpoint the field is even. -/
  tie : ∀ k, v = F.midpoint k → Even field

namespace RoundsTo

variable {F}

/-- Rounding does not go above a number of the format. -/
theorem le_of_le_value (h : F.RoundsTo v field) (hv : v ≤ F.value k) :
    field ≤ k := by
  by_contra hlt
  have hmidpoint := h.lower k (Nat.lt_of_not_le hlt)
  have hvalue := F.value_lt_midpoint k
  linarith

/-- Rounding does not go below a number of the format. -/
theorem le_of_value_le (h : F.RoundsTo v field) (hv : F.value k ≤ v) :
    k ≤ field := by
  by_contra hlt
  have hle : field + 1 ≤ k := Nat.lt_of_not_le hlt
  have hmidpoint := F.midpoint_lt_value field
  have hvalue := F.value_strictMono.monotone hle
  have hupper := h.upper
  linarith

/-- **There is one field that a number rounds to.** -/
theorem eq (h : F.RoundsTo v field) (h' : F.RoundsTo v other) :
    field = other := by
  -- of two fields the midpoint above the smaller would be the number
  have hcase : ∀ {a b : Nat}, F.RoundsTo v a → F.RoundsTo v b → ¬a < b := by
    intro a b ha hb hlt
    have htie : v = F.midpoint a := le_antisymm ha.upper (hb.lower a hlt)
    have hnext : b ≤ a + 1 := by
      by_contra hgt
      have hmidpoint := hb.lower (a + 1) (Nat.lt_of_not_le hgt)
      have hmono := F.midpoint_strictMono (Nat.lt_succ_self a)
      rw [htie] at hmidpoint
      exact absurd hmidpoint (not_le_of_gt hmono)
    obtain rfl : b = a + 1 := Nat.le_antisymm hnext hlt
    exact Nat.not_even_iff_odd.mpr (ha.tie a htie).add_one (hb.tie a htie)
  exact Nat.le_antisymm (Nat.le_of_not_lt (hcase h' h))
    (Nat.le_of_not_lt (hcase h h'))

end RoundsTo

/-- **A number strictly between two midpoints** rounds to the field between
them. -/
theorem roundsTo_of_lt (hlower : ∀ k < field, F.midpoint k < v)
    (hupper : v < F.midpoint field) : F.RoundsTo v field where
  lower := fun k hk => (hlower k hk).le
  upper := hupper.le
  tie := by
    rintro k rfl
    have hlt := F.midpoint_strictMono.lt_iff_lt.mp hupper
    exact absurd (hlower k hlt) (lt_irrefl _)

/-- **Only the two midpoints next to a field matter.** -/
theorem roundsTo_of_neighbours (hlower : ∀ k, k + 1 = field → F.midpoint k ≤ v)
    (hupper : v ≤ F.midpoint field)
    (htie : ∀ k, k + 1 = field → v = F.midpoint k → Even field)
    (htie' : v = F.midpoint field → Even field) : F.RoundsTo v field := by
  have hbelow : ∀ k < field, ∃ j, j + 1 = field ∧ k ≤ j := fun k hk =>
    ⟨field - 1, by omega, by omega⟩
  refine ⟨fun k hk => ?_, hupper, fun k heq => ?_⟩
  · obtain ⟨j, hj, hle⟩ := hbelow k hk
    exact (F.midpoint_strictMono.monotone hle).trans (hlower j hj)
  · rcases Nat.lt_or_ge k field with hlt | hge
    · obtain ⟨j, hj, hle⟩ := hbelow k hlt
      have hbetween := hlower j hj
      rw [heq, F.midpoint_strictMono.le_iff_le] at hbetween
      exact htie k (Nat.le_antisymm hle hbetween ▸ hj) heq
    · rw [heq, F.midpoint_strictMono.le_iff_le] at hupper
      exact htie' (Nat.le_antisymm hupper hge ▸ heq)

/-- **A number of the format rounds to its own field.** -/
theorem roundsTo_value (field : Nat) : F.RoundsTo (F.value field) field := by
  refine F.roundsTo_of_lt (fun k hk => ?_) (F.value_lt_midpoint field)
  exact (F.midpoint_lt_value k).trans_le
    (F.value_strictMono.monotone (Nat.succ_le_of_lt hk))

/-- The steps on both sides of an odd field are equal. -/
theorem halfStep_of_odd (hw : 0 < F.fractionBits) (hodd : Odd (k + 1)) :
    F.halfStep (k + 1) = F.halfStep k := by
  have hdvd : ¬2 ^ F.fractionBits ∣ k + 1 := by
    intro hdvd
    have htwo : 2 ∣ k + 1 := (dvd_pow_self 2 hw.ne').trans hdvd
    exact Nat.not_even_iff_odd.mpr hodd (even_iff_two_dvd.mpr htwo)
  rw [halfStep, halfStep, scale, scale, Nat.succ_div_of_not_dvd hdvd]

/-- **What rounds to an odd field** is less than half a step away from its
number. -/
theorem roundsTo_iff_of_odd (hw : 0 < F.fractionBits) (hodd : Odd field) :
    F.RoundsTo v field ↔ |v - F.value field| < F.halfStep field := by
  obtain ⟨k, rfl⟩ := Nat.exists_eq_add_one_of_ne_zero hodd.pos.ne'
  have hbelow : F.midpoint k = F.value (k + 1) - F.halfStep (k + 1) := by
    rw [F.midpoint_eq, F.value_succ, F.halfStep_of_odd hw hodd]
    ring
  rw [abs_lt, neg_lt_sub_iff_lt_add, sub_lt_iff_lt_add']
  constructor
  · intro h
    have hne : ∀ j, v ≠ F.midpoint j := fun j hj =>
      Nat.not_even_iff_odd.mpr hodd (h.tie j hj)
    have hlower := lt_of_le_of_ne (h.lower k (Nat.lt_succ_self k))
      (hne k).symm
    have hupper := lt_of_le_of_ne h.upper (hne (k + 1))
    rw [hbelow] at hlower
    rw [F.midpoint_eq] at hupper
    exact ⟨by linarith, hupper⟩
  · rintro ⟨hlower, hupper⟩
    refine F.roundsTo_of_lt (fun j hj => ?_) (by rw [F.midpoint_eq]; exact hupper)
    refine lt_of_le_of_lt
      (F.midpoint_strictMono.monotone (Nat.le_of_lt_succ hj)) ?_
    rw [hbelow]
    linarith

/-- How often a quotient is halved before it is rounded to a whole
number. -/
def halvings (num den : Nat) : Nat := Nat.log2 (num / den) - F.fractionBits

/-- The field that is found as if the format went on. -/
def nearestUnbounded (num den : Nat) : Nat :=
  divNearest num (den * 2 ^ F.halvings num den)
    + F.halvings num den * 2 ^ F.fractionBits

/-- **The halved quotient has at most a full significand**, and exactly one
if it was halved. -/
theorem halvings_spec (num : Nat) (hden : 0 < den) :
    num < 2 ^ (F.fractionBits + 1) * (den * 2 ^ F.halvings num den)
      ∧ (F.halvings num den = 0
        ∨ 2 ^ F.fractionBits * (den * 2 ^ F.halvings num den) ≤ num) := by
  have hquotient := Nat.lt_log2_self (n := num / den)
  have hle : Nat.log2 (num / den) + 1
      ≤ F.fractionBits + 1 + F.halvings num den := by
    unfold halvings
    omega
  have hpow := Nat.lt_of_lt_of_le hquotient
    (Nat.pow_le_pow_right Nat.two_pos hle)
  rw [Nat.div_lt_iff_lt_mul hden, Nat.pow_add] at hpow
  refine ⟨?_, ?_⟩
  · rwa [Nat.mul_comm den, ← Nat.mul_assoc]
  · refine (Nat.eq_zero_or_pos _).imp id fun hpos => ?_
    have hlog : F.fractionBits + F.halvings num den
        = Nat.log2 (num / den) := by
      unfold halvings at hpos ⊢
      omega
    have hne : num / den ≠ 0 := by
      intro hzero
      rw [halvings, hzero, Nat.log2_zero, Nat.zero_sub] at hpos
      exact Nat.lt_irrefl 0 hpos
    have hself := Nat.log2_self_le hne
    rw [← hlog, Nat.le_div_iff_mul_le hden, Nat.pow_add] at hself
    rwa [Nat.mul_comm den, ← Nat.mul_assoc]

theorem step_pos (h : Nat) : (0 : ℚ) < 2 ^ h / F.one :=
  div_pos (by positivity) F.one_pos

/-- The number of a field of a run, in steps. -/
theorem value_add {n h : Nat} (hn : n ≤ 2 ^ (F.fractionBits + 1))
    (hfull : h = 0 ∨ 2 ^ F.fractionBits ≤ n) :
    F.value (n + h * 2 ^ F.fractionBits) = n * (2 ^ h / F.one) := by
  rw [value, F.units_add hn hfull]
  push_cast
  ring

theorem midpoint_add {n h : Nat} (hn : n < 2 ^ (F.fractionBits + 1))
    (hfull : h = 0 ∨ 2 ^ F.fractionBits ≤ n) :
    F.midpoint (n + h * 2 ^ F.fractionBits)
      = (n + 1 / 2) * (2 ^ h / F.one) := by
  have hnext := F.value_add (n := n + 1) (h := h) hn
    (hfull.imp_right (Nat.le_add_right_of_le ·))
  rw [Nat.add_right_comm] at hnext
  rw [midpoint, F.value_add hn.le hfull, hnext]
  push_cast
  ring

/-- The midpoint above a number of steps, where the significand may have
carried over. -/
theorem le_midpoint_of_steps {n h : Nat} {y : ℚ}
    (hn : n ≤ 2 ^ (F.fractionBits + 1))
    (hfull : h = 0 ∨ 2 ^ F.fractionBits ≤ n)
    (hbelow : y < 2 ^ (F.fractionBits + 1)) (hupper : y ≤ n + 1 / 2)
    (htie : y = n + 1 / 2 → Even n) :
    y * (2 ^ h / F.one) ≤ F.midpoint (n + h * 2 ^ F.fractionBits)
      ∧ (y * (2 ^ h / F.one) = F.midpoint (n + h * 2 ^ F.fractionBits) →
        Even n) := by
  have hstep := F.step_pos h
  rcases hn.lt_or_eq with hlt | rfl
  · rw [F.midpoint_add hlt hfull]
    refine ⟨(mul_le_mul_iff_of_pos_right hstep).mpr hupper, fun heq => ?_⟩
    exact htie (mul_right_cancel₀ hstep.ne' heq)
  · refine ⟨?_, fun _ => Nat.even_pow.mpr ⟨even_two, Nat.succ_ne_zero _⟩⟩
    refine le_trans ?_ (F.value_lt_midpoint _).le
    rw [F.value_add hn hfull, mul_le_mul_iff_of_pos_right hstep]
    exact_mod_cast hbelow.le

/-- The midpoint below a number of steps, whose field may be the first with
its number of doublings. -/
theorem midpoint_le_of_steps (hw : 0 < F.fractionBits) {n h : Nat} {y : ℚ}
    (hk : k + 1 = n + h * 2 ^ F.fractionBits)
    (hn : n ≤ 2 ^ (F.fractionBits + 1))
    (hfull : h = 0 ∨ 2 ^ F.fractionBits ≤ n)
    (hy : h = 0 ∨ 2 ^ F.fractionBits ≤ y) (hlower : n - 1 / 2 ≤ y)
    (htie : y = n - 1 / 2 → Even n) :
    F.midpoint k ≤ y * (2 ^ h / F.one)
      ∧ (y * (2 ^ h / F.one) = F.midpoint k → Even n) := by
  have hstep := F.step_pos h
  by_cases hfirst : n = 2 ^ F.fractionBits ∧ h ≠ 0
  · obtain ⟨rfl, hh⟩ := hfirst
    refine ⟨le_trans (F.midpoint_lt_value k).le ?_,
      fun _ => Nat.even_pow.mpr ⟨even_two, hw.ne'⟩⟩
    rw [hk, F.value_add hn hfull, mul_le_mul_iff_of_pos_right hstep]
    exact_mod_cast hy.resolve_left hh
  · have hpos : 0 < 2 ^ F.fractionBits := Nat.two_pow_pos _
    obtain ⟨m, rfl⟩ : ∃ m, n = m + 1 := by
      refine Nat.exists_eq_succ_of_ne_zero fun hzero => ?_
      obtain rfl := hfull.resolve_right (by omega)
      rw [hzero, Nat.zero_mul] at hk
      exact Nat.succ_ne_zero k hk
    have hk : k = m + h * 2 ^ F.fractionBits := by omega
    rw [hk, F.midpoint_add hn (by omega)]
    push_cast at hlower htie
    refine ⟨(mul_le_mul_iff_of_pos_right hstep).mpr (by linarith),
      fun heq => htie ?_⟩
    have hy := mul_right_cancel₀ hstep.ne' heq
    linarith

/-- **Rounding the number of steps rounds the number**, if the steps are
those at the field. -/
theorem roundsTo_of_steps (hw : 0 < F.fractionBits) {n h : Nat} {y : ℚ}
    (hbelow : y < 2 ^ (F.fractionBits + 1))
    (hfull : h = 0 ∨ 2 ^ F.fractionBits ≤ y)
    (hlower : n - 1 / 2 ≤ y) (hupper : y ≤ n + 1 / 2)
    (htie : y = n - 1 / 2 ∨ y = n + 1 / 2 → Even n) :
    F.RoundsTo (y * (2 ^ h / F.one)) (n + h * 2 ^ F.fractionBits) := by
  have hn : n ≤ 2 ^ (F.fractionBits + 1) := by
    by_contra hgt
    have hgt : (2 ^ (F.fractionBits + 1) + 1 : ℚ) ≤ n := by
      exact_mod_cast Nat.lt_of_not_le hgt
    linarith
  have hfull' : h = 0 ∨ 2 ^ F.fractionBits ≤ n := by
    refine hfull.imp_right fun hy => ?_
    by_contra hlt
    have hlt : (n + 1 : ℚ) ≤ 2 ^ F.fractionBits := by
      exact_mod_cast Nat.lt_of_not_le hlt
    linarith
  have hfield : Even n → Even (n + h * 2 ^ F.fractionBits) := fun hn =>
    hn.add ((Nat.even_pow.mpr ⟨even_two, hw.ne'⟩).mul_left h)
  have habove := F.le_midpoint_of_steps hn hfull' hbelow hupper
    fun heq => htie (.inr heq)
  have hunder := fun (k : Nat) (hk : k + 1 = n + h * 2 ^ F.fractionBits) =>
    F.midpoint_le_of_steps hw hk hn hfull' hfull hlower
      fun heq => htie (.inl heq)
  exact F.roundsTo_of_neighbours (fun k hk => (hunder k hk).1) habove.1
    (fun k hk heq => hfield ((hunder k hk).2 heq))
    (fun heq => hfield (habove.2 heq))

/-- **What is found is the field that the quotient rounds to.** -/
theorem roundsTo_nearestUnbounded (hw : 0 < F.fractionBits) (num : Nat)
    (hden : 0 < den) :
    F.RoundsTo (num / (den * F.one)) (F.nearestUnbounded num den) := by
  obtain ⟨hbelow, hfull⟩ := F.halvings_spec num hden
  have hden' : 0 < den * 2 ^ F.halvings num den :=
    Nat.mul_pos hden (Nat.two_pow_pos _)
  obtain ⟨hlower, hupper, htie⟩ := divNearest_spec num hden'
  have hpos : (0 : ℚ) < (den * 2 ^ F.halvings num den : Nat) :=
    Nat.cast_pos.mpr hden'
  have hsteps : (num : ℚ) / (den * F.one)
      = num / (den * 2 ^ F.halvings num den : Nat)
        * (2 ^ F.halvings num den / F.one) := by
    have hone := F.one_pos
    have hdenQ : (0 : ℚ) < den := Nat.cast_pos.mpr hden
    push_cast
    field_simp
  rw [hsteps]
  refine F.roundsTo_of_steps hw ((div_lt_iff₀ hpos).mpr ?_)
    (hfull.imp_right fun h => (le_div_iff₀ hpos).mpr ?_) hlower hupper htie
  · exact_mod_cast hbelow
  · exact_mod_cast h

/-- **The nearest field is the one that the quotient rounds to**, or
infinity if that is too large. -/
theorem nearest_eq (hw : 0 < F.fractionBits) (hden : 0 < den)
    (h : F.RoundsTo (num / (den * F.one)) field) :
    F.nearest num den = min F.infinity field := by
  rw [h.eq (F.roundsTo_nearestUnbounded hw num hden)]
  rfl

/-- Every quotient rounds to some field. -/
theorem exists_roundsTo (hw : 0 < F.fractionBits) (num : Nat)
    (hden : 0 < den) :
    ∃ field, F.RoundsTo (num / (den * F.one)) field
      ∧ F.nearest num den = min F.infinity field :=
  ⟨_, F.roundsTo_nearestUnbounded hw num hden, rfl⟩

end Format

end TensorBind
