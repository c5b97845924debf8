import TensorBind.Proofs.Number.Narrowing

/-!
# Integers as floating-point numbers

A text that is read as an integer can be read as a floating-point number as
well. It is rounded from the same whole number either way, and the sign is
lost only with minus zero, which is no integer of its own
(`Binary.read?_of_readInt`).

An integer can be rounded to 64 bits before it is narrowed to 32. This
gives what rounding it at once gives, unless the integer **rounds away**
(`Binary.convert_ofInt_iff`): its nearest 64-bit number is halfway between
two 32-bit numbers, of which the odd one is the nearest to the integer
itself.
-/

namespace TensorBind

/-! ## Integers in a text -/

namespace Integer

variable {below above below' above' bound value n : Nat} {i : Int}
  {fault : IntegerFault} {token digits : List Char}

/-- What is read from digits is their value, within the bound. -/
theorem eq_of_readDigits (h : readDigits bound fault value digits = .ok n) :
    n = Nat.ofDigitChars 10 digits value := by
  induction digits generalizing value with
  | nil =>
    cases h
    rfl
  | cons c digits ih =>
    unfold readDigits at h
    split at h
    · cases h
    · rename_i d hd
      split at h
      · rw [Nat.ofDigitChars_cons, ih h, (digit?_eq_some.mp hd).2]
      · cases h

/-- **A text that is read as an integer**: digits, at least one, that may
have a sign in front. -/
theorem readInt_cases (h : readInt below above token = .ok i) :
    ∃ digits, digits ≠ [] ∧ (∀ c ∈ digits, isDecimalDigit c)
      ∧ (token = '-' :: digits
          ∧ Nat.ofDigitChars 10 digits 0 ≤ below
          ∧ i = -(Nat.ofDigitChars 10 digits 0 : Int)
        ∨ (token = digits ∨ token = '+' :: digits)
          ∧ Nat.ofDigitChars 10 digits 0 ≤ above
          ∧ i = Nat.ofDigitChars 10 digits 0) := by
  have hdigits : ∀ {bound n : Nat} {fault : IntegerFault}
      {digits : List Char}, readDigits bound fault 0 digits = .ok n →
      (∀ c ∈ digits, isDecimalDigit c)
        ∧ n = Nat.ofDigitChars 10 digits 0 ∧ n ≤ bound :=
    fun hn => ⟨isDecimalDigit_of_readDigits hn, eq_of_readDigits hn,
      le_of_readDigits (Nat.zero_le _) hn⟩
  unfold readInt at h
  split at h
  · cases h
  · cases h
  · cases h
  · rename_i rest hrest
    obtain ⟨n, hn, rfl⟩ := Except.map_eq_ok.mp h
    obtain ⟨hchars, rfl, hle⟩ := hdigits hn
    exact ⟨rest, hrest, hchars, .inr ⟨.inr rfl, hle, rfl⟩⟩
  · rename_i rest hrest
    obtain ⟨j, hj, rfl⟩ := Except.map_eq_ok.mp h
    obtain ⟨n, hn, hcast⟩ := Except.bind_eq_ok.mp hj
    obtain ⟨hchars, rfl, hle⟩ := hdigits hn
    cases hcast
    exact ⟨rest, hrest, hchars, .inl ⟨rfl, hle, rfl⟩⟩
  · rename_i hne _ _ _ _
    obtain ⟨n, hn, rfl⟩ := Except.map_eq_ok.mp h
    obtain ⟨hchars, rfl, hle⟩ := hdigits hn
    exact ⟨token, hne, hchars, .inr ⟨.inl rfl, hle, rfl⟩⟩

/-- **A wider range gives the same integer.** -/
theorem readInt_mono (h : readInt below above token = .ok i)
    (hbelow : below ≤ below') (habove : above ≤ above') :
    readInt below' above' token = .ok i := by
  obtain ⟨digits, hne, hdigits, hcases⟩ := readInt_cases h
  obtain ⟨c, rest, rfl⟩ := List.exists_cons_of_ne_nil hne
  rcases hcases with ⟨rfl, hle, rfl⟩ | ⟨rfl | rfl, hle, rfl⟩
  · rw [readInt_minus, readDigits_eq_ok hdigits (hle.trans hbelow)]
    rfl
  · rw [readInt_cons (hdigits c List.mem_cons_self),
      readDigits_eq_ok hdigits (hle.trans habove)]
    rfl
  · rw [show readInt below' above' ('+' :: c :: rest)
        = (readDigits above' .tooLarge 0 (c :: rest)).map Int.ofNat from rfl,
      readDigits_eq_ok hdigits (hle.trans habove)]
    rfl

/-- The sign of an integer is that of its text. -/
theorem sign_of_readInt (h : readInt below above token = .ok i) :
    decide (token.head? = some '-') = decide (i < 0)
      ∨ i = 0 ∧ token.head? = some '-' := by
  obtain ⟨digits, hne, hdigits, hcases⟩ := readInt_cases h
  rcases hcases with ⟨rfl, -, rfl⟩ | ⟨htoken, -, rfl⟩
  · by_cases hzero : Nat.ofDigitChars 10 digits 0 = 0
    · exact .inr ⟨by rw [hzero]; rfl, rfl⟩
    · refine .inl ?_
      rw [decide_eq_decide, List.head?_cons]
      exact ⟨fun _ => by omega, fun _ => rfl⟩
  · refine .inl ?_
    have hhead : token.head? ≠ some '-' := by
      rcases htoken with rfl | rfl
      · intro hminus
        obtain ⟨rest, rfl⟩ := List.head?_eq_some_iff.mp hminus
        exact (ne_sign_of_isDecimalDigit
          (hdigits '-' List.mem_cons_self)).1 rfl
      · simp
    rw [decide_eq_decide]
    exact ⟨fun hminus => absurd hminus hhead, fun hlt => by omega⟩

end Integer

namespace Decimal

/-- A whole number is rounded as such. -/
theorem nearest_natural {F : Format} (hF : F.Ample) (n : Nat) :
    nearest F ⟨n, 0⟩ = F.nearest (n * F.one) 1 := by
  obtain ⟨field, hfield, heq⟩ :=
    F.exists_roundsTo hF.fractionBits_pos (n * F.one) Nat.one_pos
  have hvalue := value_ofNat F n 0
  rw [Nat.pow_zero, Nat.mul_one] at hvalue
  rw [← hvalue] at hfield
  rw [heq]
  exact nearest_eq hF hfield

end Decimal

namespace Binary

variable {F : Format} {below above : Nat} {i : Int} {token digits : List Char}

/-- Digits are read as the number nearest to their value. -/
theorem readMagnitude?_digits (hF : F.Ample)
    (h : ∀ c ∈ digits, isDecimalDigit c) (hne : digits ≠ []) :
    readMagnitude? F digits
      = some (F.nearest (Nat.ofDigitChars 10 digits 0 * F.one) 1) := by
  rw [readMagnitude?, Decimal.read?_digits h hne, Decimal.valueOf_eq h]
  exact congrArg some (Decimal.nearest_natural hF _)

/-- **The text of an integer is read** as the number nearest to it, with the
sign of the text. -/
theorem read?_of_readInt (hF : F.Ample)
    (h : Integer.readInt below above token = .ok i) :
    read? F token = some (nearest F (decide (token.head? = some '-'))
      (i.natAbs * F.one) 1) := by
  obtain ⟨digits, hne, hdigits, hcases⟩ := Integer.readInt_cases h
  have hread := readMagnitude?_digits hF hdigits hne
  rcases hcases with ⟨rfl, -, rfl⟩ | ⟨rfl | rfl, -, rfl⟩
  · rw [Int.natAbs_neg, Int.natAbs_natCast]
    exact congrArg (Option.map (ofMagnitude F true)) hread
  · obtain ⟨c, rest, rfl⟩ := List.exists_cons_of_ne_nil hne
    obtain ⟨hminus, hplus⟩ := Integer.ne_sign_of_isDecimalDigit
      (hdigits c List.mem_cons_self)
    have hhead : ¬(c :: rest).head? = some '-' := fun heq =>
      hminus (Option.some.inj heq)
    rw [read?_unsigned hminus hplus, hread, Int.natAbs_natCast,
      decide_eq_false hhead]
    rfl
  · rw [Int.natAbs_natCast]
    exact congrArg (Option.map (ofMagnitude F false)) hread

/-- **The text of an integer is read as the integer**, unless it is minus
zero. -/
theorem read?_eq_ofInt_iff (hF : F.Ample)
    (h : Integer.readInt below above token = .ok i) :
    read? F token = some (ofInt F i) ↔ ¬(i = 0 ∧ token.head? = some '-') := by
  rw [read?_of_readInt hF h, Option.some.injEq, ofInt]
  rcases Integer.sign_of_readInt h with hsign | ⟨rfl, hminus⟩
  · rw [hsign]
    refine iff_of_true rfl ?_
    rintro ⟨rfl, hminus⟩
    rw [decide_eq_true hminus] at hsign
    cases hsign
  · refine iff_of_false ?_ (not_not_intro ⟨rfl, hminus⟩)
    intro heq
    have hsign := congrArg negative heq
    rw [nearest, nearest, negative_ofMagnitude (F.nearest_lt _ _),
      negative_ofMagnitude (F.nearest_lt _ _), decide_eq_true hminus] at hsign
    cases hsign

/-! ## Integers rounded twice -/

open Format (binary32 binary64)

/-- An integer is rounded as a whole number. -/
theorem exists_ofInt_eq (hw : 0 < F.fractionBits) (i : Int) :
    ∃ field, F.RoundsTo i.natAbs field
      ∧ ofInt F i = ofMagnitude F (decide (i < 0))
        (Min.min F.infinity field) := by
  obtain ⟨field, hfield, heq⟩ :=
    F.exists_roundsTo hw (i.natAbs * F.one) Nat.one_pos
  have hvalue : ((i.natAbs * F.one : Nat) : ℚ) / ((1 : Nat) * F.one)
      = i.natAbs := by
    have hone := F.one_pos
    push_cast
    field_simp
  rw [hvalue] at hfield
  exact ⟨field, hfield, congrArg (ofMagnitude F (decide (i < 0))) heq⟩

/-- **An integer that rounds away** when it is rounded to 64 bits first: its
nearest 64-bit number is halfway between two 32-bit numbers, of which the
odd one is the nearest to the integer itself. -/
def RoundsAway (i : Int) : Prop :=
  Odd (ofInt binary32 i).magnitude
    ∧ ∃ k, binary64.value (ofInt binary64 i).magnitude = binary32.midpoint k

/-- The fields that a 64-bit integer rounds to, which are finite. -/
theorem exists_magnitude_ofInt (h : i.natAbs ≤ 2 ^ 64) :
    ∃ field fine, binary32.RoundsTo i.natAbs field
      ∧ binary64.RoundsTo i.natAbs fine
      ∧ field < binary32.infinity ∧ fine < binary64.infinity
      ∧ ofInt binary32 i = ofMagnitude binary32 (decide (i < 0)) field
      ∧ ofInt binary64 i = ofMagnitude binary64 (decide (i < 0)) fine := by
  obtain ⟨field, hfield, heq⟩ :=
    exists_ofInt_eq Format.ample_binary32.fractionBits_pos i
  obtain ⟨fine, hfine, heq'⟩ :=
    exists_ofInt_eq Format.ample_binary64.fractionBits_pos i
  have hlt : field < binary32.infinity := by
    have htop : (i.natAbs : ℚ) ≤ binary32.value (191 * 2 ^ 23) := by
      have hunits : binary32.units (191 * 2 ^ 23) = 2 ^ 64 * binary32.one := by
        decide
      rw [Format.value, hunits, le_div_iff₀ binary32.one_pos]
      exact_mod_cast Nat.mul_le_mul_right _ h
    exact (hfield.le_of_le_value htop).trans_lt (by decide)
  have hfinite := Format.finer_binary64.lt_infinity hfine hfield hlt
  rw [Nat.min_eq_right hlt.le] at heq
  rw [Nat.min_eq_right hfinite.le] at heq'
  exact ⟨field, fine, hfield, hfine, hlt, hfinite, heq, heq'⟩

/-- **Rounding an integer to 64 bits first** makes no difference, unless it
rounds away. -/
theorem convert_ofInt_iff (h : i.natAbs ≤ 2 ^ 64) :
    (ofInt binary64 i).convert binary32 = ofInt binary32 i
      ↔ ¬RoundsAway i := by
  obtain ⟨field, fine, hfield, hfine, hlt, hfinite, heq, heq'⟩ :=
    exists_magnitude_ofInt h
  have hbits := hlt.trans binary32.infinity_lt
  have hbits' := hfinite.trans binary64.infinity_lt
  have htwice := Format.finer_binary64.roundsTo_value_iff hfine hfield
  obtain ⟨other, hother⟩ :=
    binary32.exists_roundsTo_value Format.ample_binary32.fractionBits_pos
      binary64 fine
  have hconvert : (ofInt binary64 i).convert binary32
      = ofMagnitude binary32 (decide (i < 0))
        (Min.min binary32.infinity other) := by
    rw [heq', convert_eq Format.ample_binary32.fractionBits_pos
        (by rwa [magnitude_ofMagnitude hbits'])
        (by rwa [magnitude_ofMagnitude hbits']),
      negative_ofMagnitude hbits']
  have hsame : (ofInt binary64 i).convert binary32 = ofInt binary32 i
      ↔ other = field := by
    rw [hconvert, heq]
    constructor
    · intro hbinary
      have hmagnitude := congrArg magnitude hbinary
      rw [magnitude_ofMagnitude ((Nat.min_le_left _ _).trans_lt
        binary32.infinity_lt), magnitude_ofMagnitude hbits] at hmagnitude
      omega
    · rintro rfl
      rw [Nat.min_eq_right hlt.le]
  rw [hsame, RoundsAway, heq, heq', magnitude_ofMagnitude hbits,
    magnitude_ofMagnitude hbits']
  constructor
  · rintro rfl ⟨hodd, k, hk⟩
    exact Nat.not_even_iff_odd.mpr hodd (hother.tie k hk)
  · intro hstays
    refine hother.eq (htwice.mpr fun k hk => ?_)
    by_contra hnot
    exact hstays ⟨Nat.not_even_iff_odd.mp hnot, k, hk⟩

end Binary

end TensorBind
