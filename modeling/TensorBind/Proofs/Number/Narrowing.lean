import TensorBind.Proofs.Number.Plain

/-!
# Rounding twice

A format is *finer* than another if it has the midpoints of the other among
its numbers (`Format.Finer.exists_value_eq`). A number that is rounded to
the finer format first stays between the same midpoints of the coarser one.
To round it again gives the field that rounding once gives, unless the
first rounding has moved the number onto a midpoint: then the tie goes to
the even field, wherever the number came from
(`Format.Finer.roundsTo_value_iff`). Only odd fields can be lost in this
way.
-/

namespace TensorBind

namespace Format

variable {F G : Format} {v : ℚ} {field fine k : Nat}

theorem significand_lt (F : Format) (field : Nat) :
    F.significand field < 2 ^ (F.fractionBits + 1) := by
  have hrest := Nat.mod_lt field (Nat.two_pow_pos F.fractionBits)
  rw [significand, Nat.pow_succ]
  split <;> omega

/-! ## Half steps -/

/-- **A number is an even number of half steps.** -/
theorem value_eq_mul (F : Format) (field : Nat) :
    F.value field = (2 * F.significand field : Nat) * F.halfStep field := by
  have hone := F.one_pos
  rw [value, units, halfStep]
  push_cast
  field_simp

/-- **A midpoint is an odd number of half steps.** -/
theorem midpoint_eq_mul (F : Format) (field : Nat) :
    F.midpoint field = (2 * F.significand field + 1 : Nat)
      * F.halfStep field := by
  rw [F.midpoint_eq, value_eq_mul]
  push_cast
  ring

/-- The half step of a field with a leading bit is small beside its
number. -/
theorem halfStep_le (F : Format) (h : 2 ^ F.fractionBits ≤ field) :
    2 ^ (F.fractionBits + 1) * F.halfStep field ≤ F.value field := by
  have hfull : 2 ^ (F.fractionBits + 1) ≤ 2 * F.significand field := by
    rw [significand, if_neg (Nat.not_lt_of_le h), Nat.pow_succ]
    omega
  rw [value_eq_mul]
  refine mul_le_mul_of_nonneg_right ?_ (F.halfStep_pos field).le
  exact_mod_cast hfull

/-- **Rounding goes no farther than a half step.** -/
theorem RoundsTo.abs_sub_le (h : F.RoundsTo v field) (hv : 0 ≤ v) :
    |v - F.value field| ≤ F.halfStep field := by
  have hpos := F.halfStep_pos field
  have hupper := h.upper
  rw [F.midpoint_eq] at hupper
  refine abs_sub_le_iff.mpr ⟨by linarith, ?_⟩
  cases field with
  | zero =>
    rw [F.value_zero]
    linarith
  | succ k =>
    have hlower := h.lower k (Nat.lt_succ_self k)
    have hmono : F.halfStep k ≤ F.halfStep (k + 1) := by
      have hscale : F.scale k ≤ F.scale (k + 1) :=
        Nat.sub_le_sub_right (Nat.div_le_div_right (Nat.le_succ k)) 1
      exact div_le_div_of_nonneg_right
        (pow_le_pow_right₀ one_le_two hscale)
        (mul_pos two_pos F.one_pos).le
    rw [F.midpoint_eq] at hlower
    rw [F.value_succ]
    linarith

/-- The midpoints next to an odd field, in its own half steps. -/
theorem midpoint_of_odd (hw : 0 < F.fractionBits) (hodd : Odd field)
    (hk : k = field ∨ k + 1 = field) :
    ∃ m : Nat, F.midpoint k = m * F.halfStep field
      ∧ (m = 2 * F.significand field + 1 ∨ m + 1 = 2 * F.significand field) := by
  rcases hk with rfl | rfl
  · exact ⟨_, F.midpoint_eq_mul k, .inl rfl⟩
  · have hpos : 0 < F.significand (k + 1) := by
      have hfull : 0 < 2 ^ F.fractionBits := Nat.two_pow_pos _
      rw [significand]
      split <;> omega
    obtain ⟨m, hm⟩ : ∃ m, m + 1 = 2 * F.significand (k + 1) :=
      ⟨2 * F.significand (k + 1) - 1, by omega⟩
    refine ⟨m, ?_, .inr hm⟩
    have hvalue := F.value_eq_mul (k + 1)
    rw [← hm, F.value_succ, ← F.halfStep_of_odd hw hodd] at hvalue
    push_cast at hvalue
    rw [F.midpoint_eq, ← F.halfStep_of_odd hw hodd]
    linarith

/-! ## Finer formats -/

/-- **A significand with any number of doublings** is a number of units that
some field stands for. -/
theorem exists_units_eq (F : Format) {m : Nat}
    (hm : m < 2 ^ (F.fractionBits + 1)) (t : Nat) :
    ∃ field, F.units field = m * 2 ^ t := by
  obtain ⟨hbelow, hfull⟩ := F.halvings_spec (m * 2 ^ t) Nat.one_pos
  have hle : F.halvings (m * 2 ^ t) 1 ≤ t := by
    have hlt : m * 2 ^ t < 2 ^ (F.fractionBits + 1 + t) := by
      rw [Nat.pow_add]
      exact Nat.mul_lt_mul_of_pos_right hm (Nat.two_pow_pos t)
    rw [halvings, Nat.div_one]
    rcases Nat.eq_zero_or_pos (m * 2 ^ t) with hzero | hpos
    · rw [hzero, Nat.log2_zero, Nat.zero_sub]
      exact Nat.zero_le t
    · have hlog := (Nat.log2_lt hpos.ne').mpr hlt
      omega
  obtain ⟨n, hn⟩ : 2 ^ F.halvings (m * 2 ^ t) 1 ∣ m * 2 ^ t :=
    (Nat.pow_dvd_pow 2 hle).trans (Nat.dvd_mul_left _ m)
  generalize F.halvings (m * 2 ^ t) 1 = h at hbelow hfull hn
  have hpos : 0 < 2 ^ h := Nat.two_pow_pos h
  rw [Nat.mul_comm (2 ^ h)] at hn
  rw [Nat.one_mul, hn] at hbelow hfull
  rw [hn]
  refine ⟨n + h * 2 ^ F.fractionBits, F.units_add ?_ ?_⟩
  · exact (Nat.lt_of_mul_lt_mul_right hbelow).le
  · exact hfull.imp_right fun hle => Nat.le_of_mul_le_mul_right hle hpos

/-- **A finer format**: it has a longer fraction, and its unit divides a half
of the unit of the other. -/
structure Finer (G F : Format) : Prop where
  /-- Twice a significand and one more fit into a significand. -/
  fractionBits_lt : F.fractionBits < G.fractionBits
  /-- A half unit is a whole number of units. -/
  half_unit : ∃ t, G.one = 2 * F.one * 2 ^ t
  /-- It does not end before the other does. -/
  infinity_le : F.value F.infinity ≤ G.value G.infinity

theorem one_binary64 : binary64.one = 2 * binary32.one * 2 ^ 924 := by
  decide +kernel

theorem finer_binary64 : binary64.Finer binary32 where
  fractionBits_lt := by decide
  half_unit := ⟨924, one_binary64⟩
  infinity_le := by
    have hcross : binary32.units binary32.infinity * binary64.one
        ≤ binary64.units binary64.infinity * binary32.one := by
      decide +kernel
    rw [value, value, div_le_div_iff₀ binary32.one_pos binary64.one_pos]
    exact_mod_cast hcross

namespace Finer

/-- **The finer format has the midpoints of the other.** -/
theorem exists_value_eq (h : G.Finer F) (k : Nat) :
    ∃ j, G.value j = F.midpoint k := by
  obtain ⟨t, ht⟩ := h.half_unit
  have hsignificand : 2 * F.significand k + 1 < 2 ^ (G.fractionBits + 1) := by
    have hlt := F.significand_lt k
    have hle : 2 ^ (F.fractionBits + 1) * 2 ≤ 2 ^ (G.fractionBits + 1) := by
      rw [← Nat.pow_succ]
      exact Nat.pow_le_pow_right Nat.two_pos
        (Nat.succ_le_succ h.fractionBits_lt)
    omega
  obtain ⟨j, hj⟩ := G.exists_units_eq hsignificand (F.scale k + t)
  refine ⟨j, ?_⟩
  have hone := F.one_pos
  rw [value, hj, midpoint_eq_mul, halfStep, ht, Nat.pow_add]
  push_cast
  field_simp

/-- A number that rounds to a finite field rounds to a finite field of the
finer format. -/
theorem lt_infinity (h : G.Finer F) (hfine : G.RoundsTo v fine)
    (hfield : F.RoundsTo v field) (hlt : field < F.infinity) :
    fine < G.infinity := by
  obtain ⟨j, hj⟩ := h.exists_value_eq field
  have hle : fine ≤ j := hfine.le_of_le_value (hj ▸ hfield.upper)
  refine lt_of_le_of_lt hle (G.value_strictMono.lt_iff_lt.mp ?_)
  calc G.value j = F.midpoint field := hj
    _ < F.value (field + 1) := F.midpoint_lt_value field
    _ ≤ F.value F.infinity := F.value_strictMono.monotone hlt
    _ ≤ G.value G.infinity := h.infinity_le

/-- **Rounding to the finer format goes past no midpoint.** -/
theorem between (h : G.Finer F) (hfine : G.RoundsTo v fine)
    (hfield : F.RoundsTo v field) :
    (∀ k < field, F.midpoint k ≤ G.value fine)
      ∧ G.value fine ≤ F.midpoint field := by
  constructor
  · intro k hk
    obtain ⟨j, hj⟩ := h.exists_value_eq k
    rw [← hj]
    exact G.value_strictMono.monotone
      (hfine.le_of_value_le (hj ▸ hfield.lower k hk))
  · obtain ⟨j, hj⟩ := h.exists_value_eq field
    rw [← hj]
    exact G.value_strictMono.monotone (hfine.le_of_le_value (hj ▸ hfield.upper))

/-- **Rounding twice is rounding once**, unless the first rounding goes to a
midpoint next to an odd field. -/
theorem roundsTo_value_iff (h : G.Finer F) (hfine : G.RoundsTo v fine)
    (hfield : F.RoundsTo v field) :
    F.RoundsTo (G.value fine) field
      ↔ ∀ k, G.value fine = F.midpoint k → Even field := by
  obtain ⟨hlower, hupper⟩ := h.between hfine hfield
  exact ⟨fun hrounds => hrounds.tie, fun htie => ⟨hlower, hupper, htie⟩⟩

/-- A midpoint that is reached is one of the two next to the field. -/
theorem eq_or_of_midpoint (h : G.Finer F) (hfine : G.RoundsTo v fine)
    (hfield : F.RoundsTo v field) (hmidpoint : G.value fine = F.midpoint k) :
    k = field ∨ k + 1 = field := by
  obtain ⟨hlower, hupper⟩ := h.between hfine hfield
  have hle : k ≤ field := by
    rw [hmidpoint] at hupper
    exact F.midpoint_strictMono.le_iff_le.mp hupper
  by_contra hother
  have hlt := F.midpoint_strictMono (Nat.lt_succ_self k)
  have hge := hlower (k + 1) (by omega)
  rw [hmidpoint] at hge
  exact absurd hge (not_le_of_gt hlt)

end Finer

/-- The quotient that a number of one format is in the units of another. -/
theorem value_eq_div (F G : Format) (fine : Nat) :
    G.value fine = (G.units fine * F.one : Nat) / ((G.one : Nat) * F.one) := by
  have hone := F.one_pos
  have hone' := G.one_pos
  rw [value]
  push_cast
  field_simp

/-- Every number of a format rounds to some field of another. -/
theorem exists_roundsTo_value (F : Format) (hw : 0 < F.fractionBits)
    (G : Format) (fine : Nat) : ∃ field, F.RoundsTo (G.value fine) field := by
  have hone : 0 < G.one := Nat.two_pow_pos _
  obtain ⟨field, hfield, -⟩ :=
    F.exists_roundsTo hw (G.units fine * F.one) hone
  exact ⟨field, F.value_eq_div G fine ▸ hfield⟩

theorem quietNaN_lt (F : Format) (hw : 0 < F.fractionBits) :
    F.quietNaN < 2 ^ F.magnitudeBits := by
  have hhalf : 2 ^ (F.fractionBits - 1) < 2 ^ F.fractionBits :=
    Nat.pow_lt_pow_right (by decide) (Nat.sub_one_lt hw.ne')
  have hall : F.infinity + 2 ^ F.fractionBits = 2 ^ F.magnitudeBits := by
    have hpos : 0 < 2 ^ F.exponentBits := Nat.two_pow_pos _
    rw [infinity, magnitudeBits, Nat.pow_add,
      ← Nat.succ_mul, Nat.succ_eq_add_one, Nat.sub_add_cancel hpos]
  rw [quietNaN]
  omega

end Format

/-! ## Conversions -/

namespace Binary

variable {F G : Format} {x : Binary G} {field : Nat}

/-- **Converting a number keeps its sign.** -/
theorem negative_convert (hF : 0 < F.fractionBits) (x : Binary G) :
    (x.convert F).negative = x.negative := by
  unfold convert
  split
  · exact negative_ofMagnitude (F.quietNaN_lt hF)
  · split
    · exact negative_ofMagnitude F.infinity_lt
    · exact negative_ofMagnitude (F.nearest_lt _ _)

theorem convert_infinite (F G : Format) (negative : Bool) :
    (infinite G negative).convert F = infinite F negative := by
  have hinfinite : (infinite G negative).isInfinite :=
    decide_eq_true (magnitude_ofMagnitude G.infinity_lt)
  have hsign : (infinite G negative).negative = negative :=
    negative_ofMagnitude G.infinity_lt
  rw [convert, if_neg (not_isNaN_of_isInfinite hinfinite), if_pos hinfinite,
    hsign]

/-- **Converting a finite number rounds it.** -/
theorem convert_eq (hF : 0 < F.fractionBits) (h : x.magnitude < G.infinity)
    (hfield : F.RoundsTo (G.value x.magnitude) field) :
    x.convert F = ofMagnitude F x.negative (Min.min F.infinity field) := by
  obtain ⟨hnumber, hfinite⟩ := finite_of_lt h
  rw [F.value_eq_div G] at hfield
  have hone : 0 < G.one := Nat.two_pow_pos _
  rw [convert, if_neg hnumber, if_neg hfinite, nearest, units,
    F.nearest_eq hF hone hfield]

end Binary

end TensorBind
