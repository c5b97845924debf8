import TensorBind.Proofs.Number.Narrowing

/-!
# Shortest decimals next to a midpoint

The shortest decimal of a 32-bit number can be so close to a midpoint that
rounding it to 64 bits makes it the midpoint. To round it again then gives
the even neighbour of the number. There is one magnitude to which this
happens, `oddOneOut`, and no other (`Format.roundsTo_shortest_fine`).

What has to be excluded is a coincidence between powers of two and of ten.
In half steps of the number a midpoint is a whole number `m`, and a decimal
on a grid that is coarse enough to have given the shortest one is `c` times
a fixed fraction `a / b`. If `c * a` and `m * b` were that close without
being equal, then `m / c` would be closer to `a / b` than fractions of its
size can be. Euclid's algorithm finds, for each number of doublings, the
fraction that says so (`findsIsolating_steps`).
-/

namespace TensorBind

/-! ## Fractions that keep others away -/

variable {a b c m s p k : Nat}

/-- **A fraction `p / k` close to `a / b`**: as close as it takes for `m / c`
to be the same fraction, if `c * a` and `m * b` are within a part in
`2 ^ 28` of `b` and `c` is a significand. -/
def Adjoins (a b p k : Nat) : Prop :=
  k * b + 2 ^ 52 * Nat.dist (k * a) (p * b) < 2 ^ 28 * b

/-- **A fraction `p / k` that keeps others away from `a / b`**: it is close
to `a / b` and in lowest terms, and it is `a / b` or its terms are too
large. -/
def Isolates (a b p k : Nat) : Prop :=
  Adjoins a b p k ∧ p.Coprime k
    ∧ (0 < k ∧ k * a = p * b ∨ 2 ^ 24 < k ∨ 2 ^ 25 ≤ p)

instance (a b p k : Nat) : Decidable (Adjoins a b p k) :=
  inferInstanceAs (Decidable (_ < _))

instance (a b p k : Nat) : Decidable (Isolates a b p k) :=
  inferInstanceAs (Decidable (_ ∧ _))

/-- **Two fractions that close are one.** -/
theorem Adjoins.cross_eq (h : Adjoins a b p k) (hc : c ≤ 2 ^ 24)
    (hclose : 2 ^ 28 * Nat.dist (c * a) (m * b) ≤ b) : p * c = k * m := by
  have hadjoins : k * b + 2 ^ 52 * Nat.dist (k * a) (p * b) < 2 ^ 28 * b := h
  -- the cross product is small in both distances
  have hcross := calc
    Nat.dist (p * c) (k * m) * b
      = Nat.dist (p * c * b) (k * m * b) := (Nat.dist_mul_right _ _ _).symm
    _ ≤ Nat.dist (p * c * b) (k * c * a) + Nat.dist (k * c * a) (k * m * b) :=
        Nat.dist.triangle_inequality _ _ _
    _ = c * Nat.dist (k * a) (p * b) + k * Nat.dist (c * a) (m * b) := by
        rw [Nat.dist_comm, Nat.mul_comm k c, Nat.mul_assoc, Nat.mul_comm p c,
          Nat.mul_assoc, Nat.dist_mul_left, Nat.mul_left_comm c k a,
          Nat.mul_assoc, Nat.dist_mul_left]
  have hnear : k * (2 ^ 28 * Nat.dist (c * a) (m * b)) ≤ k * b :=
    Nat.mul_le_mul_left k hclose
  have hsmall : c * Nat.dist (k * a) (p * b)
      ≤ 2 ^ 24 * Nat.dist (k * a) (p * b) :=
    Nat.mul_le_mul_right _ hc
  have hlt : Nat.dist (p * c) (k * m) * b < 1 * b := by linarith
  refine Nat.eq_of_dist_eq_zero (Nat.lt_one_iff.mp ?_)
  exact Nat.lt_of_mul_lt_mul_right hlt

/-- **What an isolating fraction excludes**: `c * a` and `m * b` are equal
or apart. -/
theorem Isolates.mul_eq_mul (h : Isolates a b p k) (hc : c ≤ 2 ^ 24)
    (hpos : 0 < m) (hm : m < 2 ^ 25)
    (hclose : 2 ^ 28 * Nat.dist (c * a) (m * b) ≤ b) : c * a = m * b := by
  obtain ⟨hadjoins, hcoprime, hterms⟩ := h
  have hcross := hadjoins.cross_eq hc hclose
  rcases hterms with ⟨hk, hexact⟩ | hlarge | hlarge
  · refine Nat.eq_of_mul_eq_mul_left hk ?_
    calc k * (c * a) = c * (k * a) := by ring
      _ = p * c * b := by rw [hexact]; ring
      _ = k * (m * b) := by rw [hcross]; ring
  · have hdvd : k ∣ c :=
      hcoprime.symm.dvd_of_dvd_mul_left (hcross ▸ Nat.dvd_mul_right _ _)
    obtain rfl := Nat.eq_zero_of_dvd_of_lt hdvd (by omega)
    rw [Nat.mul_zero, eq_comm, Nat.mul_eq_zero] at hcross
    omega
  · have hdvd : p ∣ m :=
      hcoprime.dvd_of_dvd_mul_left (hcross ▸ Nat.dvd_mul_right _ _)
    have hzero := Nat.eq_zero_of_dvd_of_lt hdvd (by omega)
    omega

/-- Looks for an isolating fraction among those that Euclid's algorithm runs
through. The last one was `p' / k'` and this one is `p / k`. -/
def findsIsolating (a b : Nat) :
    Nat → Nat → Nat → Nat → Nat → Nat → Nat → Bool
  | 0, _, _, _, _, _, _ => false
  | steps + 1, num, den, p', k', p, k =>
    decide (Isolates a b p k)
      || findsIsolating a b steps den (num % den) p k
        (num / den * p + p') (num / den * k + k')

theorem exists_of_findsIsolating {steps num den p' k' : Nat}
    (h : findsIsolating a b steps num den p' k' p k) :
    ∃ p k, Isolates a b p k := by
  induction steps generalizing num den p' k' p k with
  | zero => cases h
  | succ steps ih =>
    rw [findsIsolating, Bool.or_eq_true, decide_eq_true_eq] at h
    exact h.elim (fun hfound => ⟨p, k, hfound⟩) ih

/-! ## Powers of two and of ten -/

/-- The least power of ten, counted from `10 ^ -45`, on whose grid a decimal
can be the nearest to a number with `s` doublings and be this close to a
midpoint. -/
def coarsest (s : Nat) : Nat := (s * 1233 + 4690) / 4096

/-- A step of that grid, and a half step of the number, over a common
denominator. -/
def gridStep (s : Nat) : Nat := 10 ^ coarsest s * 2 ^ 150

@[inherit_doc gridStep]
def binaryStep (s : Nat) : Nat := 10 ^ 45 * 2 ^ s

theorem coarsest_spec : ∀ s < 254, 0 < coarsest s
    ∧ 2 ^ 29 * binaryStep s ≤ 2 ^ 28 * gridStep s + 2 * binaryStep s
    ∧ 2 ^ 28 * (10 ^ (coarsest s - 1) * 2 ^ 150) + 2 * binaryStep s
      < 2 ^ 29 * binaryStep s := by
  decide +kernel

/-- **For all but one number of doublings a fraction is found** that keeps
others away. -/
theorem findsIsolating_steps : ∀ s < 254, s ≠ 42 →
    findsIsolating (gridStep s) (binaryStep s) 43 (gridStep s) (binaryStep s)
      0 1 1 0 := by
  decide +kernel

theorem adjoins_of_exception :
    Adjoins (gridStep 42) (binaryStep 42) 22841339 7038531
      ∧ Nat.Coprime 22841339 7038531 := by
  decide +kernel

/-- **No decimal is that close to a midpoint without being it**, with one
exception. -/
theorem mul_eq_mul_of_close (hs : s < 254) (hc : c ≤ 2 ^ 24) (hpos : 0 < m)
    (hm : m < 2 ^ 25)
    (hclose : 2 ^ 28 * Nat.dist (c * gridStep s) (m * binaryStep s)
      ≤ binaryStep s) :
    c * gridStep s = m * binaryStep s ∨ s = 42 ∧ m = 22841339 := by
  by_cases hexception : s = 42
  · subst hexception
    obtain ⟨hadjoins, hcoprime⟩ := adjoins_of_exception
    have hcross := hadjoins.cross_eq hc hclose
    obtain ⟨t, rfl⟩ : 22841339 ∣ m :=
      hcoprime.dvd_of_dvd_mul_left (hcross ▸ Nat.dvd_mul_right _ _)
    exact .inr ⟨rfl, by omega⟩
  · obtain ⟨p, k, hisolates⟩ :=
      exists_of_findsIsolating (findsIsolating_steps s hs hexception)
    exact .inl (hisolates.mul_eq_mul hc hpos hm hclose)

/-- A grid on which the nearest decimal is at least nearly a half step of the
number away has the steps of the coarsest such grid. -/
theorem exists_pow_eq (hs : s < 254) {power : ℤ}
    (hpower : 2 ^ 29 * (2 ^ s / 2 ^ 150 : ℚ)
      ≤ 2 ^ 28 * 10 ^ power + 2 * (2 ^ s / 2 ^ 150)) :
    ∃ q : Nat, (10 : ℚ) ^ power = 10 ^ q * 10 ^ coarsest s / 10 ^ 45 := by
  obtain ⟨hpos, -, hbelow⟩ := coarsest_spec s hs
  have hshift : (10 : ℚ) ^ (power + 45) = 10 ^ power * 10 ^ 45 := by
    rw [zpow_add₀ (by norm_num)]
    norm_cast
  have hle : (coarsest s : ℤ) ≤ power + 45 := by
    by_contra hgt
    have hpow : (10 : ℚ) ^ (power + 45) ≤ 10 ^ (coarsest s - 1) := by
      rw [← zpow_natCast]
      exact zpow_le_zpow_right₀ (by norm_num) (by omega)
    have hbelow : (2 ^ 28 * (10 ^ (coarsest s - 1) * 2 ^ 150)
        + 2 * (10 ^ 45 * 2 ^ s) : ℚ) < 2 ^ 29 * (10 ^ 45 * 2 ^ s) := by
      unfold binaryStep at hbelow
      exact_mod_cast hbelow
    have hstep : (2 ^ s / 2 ^ 150 * 2 ^ 150 : ℚ) = 2 ^ s :=
      div_mul_cancel₀ _ (by norm_num)
    rw [hshift] at hpow
    linarith
  obtain ⟨q, hq⟩ := Int.le.dest hle
  refine ⟨q, ?_⟩
  rw [eq_div_iff (by norm_num), ← hshift, ← hq, zpow_add₀ (by norm_num),
    zpow_natCast, zpow_natCast, mul_comm]

/-- On that grid the decimal has a coefficient no longer than a
significand. -/
theorem le_of_close (hs : s < 254) (hm : m < 2 ^ 25)
    (hclose : 2 ^ 28 * Nat.dist (c * gridStep s) (m * binaryStep s)
      ≤ binaryStep s) : c ≤ 2 ^ 24 := by
  obtain ⟨-, hcoarse, -⟩ := coarsest_spec s hs
  by_contra hgt
  have hpos : 0 < binaryStep s :=
    Nat.mul_pos (Nat.pow_pos (by decide)) (Nat.two_pow_pos s)
  have hlarge : (2 ^ 24 + 1) * gridStep s ≤ c * gridStep s :=
    Nat.mul_le_mul_right _ (Nat.lt_of_not_le hgt)
  have hsmall : (m + 1) * binaryStep s ≤ 2 ^ 25 * binaryStep s :=
    Nat.mul_le_mul_right _ hm
  have hle := Nat.dist_tri_left' (c * gridStep s) (m * binaryStep s)
  linarith

theorem cast_dist (x y : Nat) : (Nat.dist x y : ℚ) = |(x : ℚ) - y| := by
  rcases Nat.le_total x y with hle | hle
  · rw [Nat.dist_eq_sub_of_le hle, Nat.cast_sub hle, abs_sub_comm,
      abs_of_nonneg (sub_nonneg.mpr (Nat.cast_le.mpr hle))]
  · rw [Nat.dist_eq_sub_of_le_right hle, Nat.cast_sub hle,
      abs_of_nonneg (sub_nonneg.mpr (Nat.cast_le.mpr hle))]

/-- **The same, of a decimal and a midpoint**, for a number with `s`
doublings whose half step is `δ`. -/
theorem eq_of_close (hs : s < 254) (hpos : 0 < m) (hm : m < 2 ^ 25)
    {v δ : ℚ} {power : ℤ} (hδ : δ = 2 ^ s / 2 ^ 150) (hv : v = c * 10 ^ power)
    (hclose : 2 ^ 28 * |v - m * δ| ≤ δ)
    (hpower : 2 ^ 29 * δ ≤ 2 ^ 28 * 10 ^ power + 2 * δ) :
    v = m * δ ∨ s = 42 ∧ m = 22841339 := by
  obtain ⟨q, hq⟩ := exists_pow_eq hs (hδ ▸ hpower)
  have hcommon : (0 : ℚ) < 10 ^ 45 * 2 ^ 150 := by positivity
  have hgrid : v * (10 ^ 45 * 2 ^ 150) = (c * 10 ^ q : Nat) * gridStep s := by
    rw [hv, hq, gridStep]
    push_cast
    field_simp
    norm_num
  have hstep : δ * (10 ^ 45 * 2 ^ 150) = binaryStep s := by
    rw [hδ, binaryStep]
    push_cast
    field_simp
    norm_num
  generalize c * 10 ^ q = c' at hgrid
  have hclose' : 2 ^ 28 * Nat.dist (c' * gridStep s) (m * binaryStep s)
      ≤ binaryStep s := by
    have habs : (Nat.dist (c' * gridStep s) (m * binaryStep s) : ℚ)
        = |v - m * δ| * (10 ^ 45 * 2 ^ 150) := by
      rw [cast_dist, Nat.cast_mul, Nat.cast_mul, ← hgrid, ← hstep,
        ← mul_assoc (m : ℚ), ← sub_mul, abs_mul, abs_of_pos hcommon]
    have hscaled := mul_le_mul_of_nonneg_right hclose hcommon.le
    rw [mul_assoc, ← habs, hstep] at hscaled
    exact_mod_cast hscaled
  refine (mul_eq_mul_of_close hs (le_of_close hs hm hclose') hpos hm
    hclose').imp_left fun heq => mul_right_cancel₀ hcommon.ne' ?_
  rw [hgrid, mul_assoc, hstep]
  exact_mod_cast heq

/-! ## The shortest decimal, rounded twice -/

/-- **The magnitude whose shortest decimal is lost** when it is rounded to
64 bits first. -/
def oddOneOut : Nat := 0x15ae43fd

namespace Format

variable {field fine k : Nat} {v : ℚ}

theorem halfStep_binary32 (field : Nat) :
    binary32.halfStep field = 2 ^ binary32.scale field / 2 ^ 150 := by
  have hone : 2 * binary32.one = 2 ^ 150 := by decide
  rw [halfStep]
  exact congrArg (2 ^ binary32.scale field / ·) (by exact_mod_cast hone)

theorem scale_lt (h : field < binary32.infinity) :
    binary32.scale field < 254 := by
  have hinfinity : binary32.infinity = 255 * 2 ^ 23 := rfl
  rw [hinfinity] at h
  show field / 2 ^ 23 - 1 < 254
  omega

/-- Every half step is a 64-bit number with a leading bit. -/
theorem value_le_halfStep (field : Nat) :
    binary64.value (2 ^ 52) ≤ binary32.halfStep field := by
  have hunits : binary64.units (2 ^ 52) = 2 ^ 52 := by decide
  have hpow := calc
    (2 ^ 52 : ℚ) ≤ 2 ^ 924 := pow_le_pow_right₀ one_le_two (by decide)
    _ ≤ 2 ^ binary32.scale field * 2 ^ 924 :=
        le_mul_of_one_le_left (by positivity) (one_le_pow₀ one_le_two)
  have hpos : (0 : ℚ) < 2 * binary32.one := mul_pos two_pos binary32.one_pos
  rw [value, hunits, one_binary64, halfStep, Nat.cast_mul, Nat.cast_mul,
    Nat.cast_pow, Nat.cast_pow, Nat.cast_ofNat,
    div_le_div_iff₀ (mul_pos hpos (by positivity)) hpos]
  calc (2 ^ 52 : ℚ) * (2 * binary32.one)
      ≤ 2 ^ binary32.scale field * 2 ^ 924 * (2 * binary32.one) :=
        mul_le_mul_of_nonneg_right hpow hpos.le
    _ = 2 ^ binary32.scale field * (2 * binary32.one * 2 ^ 924) := by
        rw [mul_assoc, mul_comm (2 ^ 924 : ℚ)]

/-- **A number that is rounded to a midpoint was close to it.** -/
theorem close_of_midpoint {m : Nat} (hv : 0 ≤ v)
    (hfine : binary64.RoundsTo v fine) (hpos : 0 < m) (hm : m < 2 ^ 25)
    (hmidpoint : binary64.value fine = m * binary32.halfStep field) :
    2 ^ 28 * |v - m * binary32.halfStep field| ≤ binary32.halfStep field := by
  have hstep := binary32.halfStep_pos field
  have hleading : 2 ^ 52 ≤ fine := by
    refine binary64.value_strictMono.le_iff_le.mp ?_
    calc binary64.value (2 ^ 52)
        ≤ binary32.halfStep field := value_le_halfStep field
      _ ≤ m * binary32.halfStep field :=
          le_mul_of_one_le_left hstep.le (by exact_mod_cast hpos)
      _ = binary64.value fine := hmidpoint.symm
  have hclose := hfine.abs_sub_le hv
  have hsmall : (2 ^ 53 : ℚ) * binary64.halfStep fine ≤ binary64.value fine :=
    binary64.halfStep_le hleading
  have hm : (m : ℚ) * binary32.halfStep field
      ≤ 2 ^ 25 * binary32.halfStep field :=
    mul_le_mul_of_nonneg_right (by exact_mod_cast hm.le) hstep.le
  rw [hmidpoint] at hclose hsmall
  linarith

/-- The exceptional midpoint belongs to one odd magnitude. -/
theorem eq_oddOneOut (hodd : Odd field) (hscale : binary32.scale field = 42)
    (hm : 22841339 = 2 * binary32.significand field + 1
      ∨ 22841339 + 1 = 2 * binary32.significand field) :
    field = oddOneOut := by
  have hscale : field / 2 ^ 23 - 1 = 42 := hscale
  have hsignificand : binary32.significand field
    = if field < 2 ^ 23 then field else 2 ^ 23 + field % 2 ^ 23 := rfl
  rw [hsignificand, if_neg (by omega)] at hm
  rw [Nat.odd_iff] at hodd
  unfold oddOneOut
  omega

/-- **The shortest decimal can be rounded twice**: to 64 bits and then to
32, for every finite magnitude but one. -/
theorem roundsTo_shortest_fine (hfield : field < binary32.infinity)
    (hne : field ≠ oddOneOut)
    (hfine : binary64.RoundsTo (binary32.shortest field).value fine) :
    binary32.RoundsTo (binary64.value fine) field := by
  have hrounds := roundsTo_shortest ample_binary32 hfield
  rw [finer_binary64.roundsTo_value_iff hfine hrounds]
  intro k hk
  by_contra hnot
  have hodd := Nat.not_even_iff_odd.mp hnot
  obtain ⟨m, hmidpoint, hm⟩ := midpoint_of_odd
    ample_binary32.fractionBits_pos hodd
    (finer_binary64.eq_or_of_midpoint hfine hrounds hk)
  have hsignificand : binary32.significand field < 2 ^ 24 :=
    binary32.significand_lt field
  have hpos : 0 < m := by omega
  have hlt : m < 2 ^ 25 := by omega
  have hclose := close_of_midpoint (Decimal.value_nonneg _) hfine hpos hlt
    (hk.trans hmidpoint)
  have hstep := binary32.halfStep_pos field
  have hapart : |m * binary32.halfStep field - binary32.value field|
      = binary32.halfStep field := by
    rw [value_eq_mul]
    rcases hm with rfl | hm
    · push_cast
      rw [add_mul, add_sub_cancel_left, one_mul, abs_of_pos hstep]
    · rw [← hm]
      push_cast
      rw [add_mul, sub_add_cancel_left, one_mul, abs_neg, abs_of_pos hstep]
  rcases shortest_near ample_binary32 hfield hodd with
    hexact | ⟨c, power, hvalue, hnear⟩
  · rw [hexact, abs_sub_comm, hapart] at hclose
    linarith
  · have htriangle := abs_sub_le (m * binary32.halfStep field)
      (binary32.shortest field).value (binary32.value field)
    rw [hapart, abs_sub_comm (m * binary32.halfStep field)] at htriangle
    rcases eq_of_close (scale_lt hfield) hpos hlt (halfStep_binary32 field)
      hvalue hclose (by linarith) with heq | ⟨hscale, rfl⟩
    · exact hnot (hrounds.tie k (heq.trans hmidpoint.symm))
    · exact hne (eq_oddOneOut hodd hscale hm)

end Format

end TensorBind
