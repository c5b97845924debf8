import TensorBind.Proofs.Literal
import TensorBind.Proofs.Number.Reading
import TensorBind.Proofs.Number.Shortest

/-!
# Plain texts of numbers

Positional notation is read as a decimal of the same value, whichever of its
three layouts it has (`Decimal.read?_positional`). The plain text of a
number is therefore read, in any format, as the number of that format
nearest to the shortest decimal (`Binary.read?_plain_of_finite`), and in its
own format as the number itself (`Binary.read?_plain`).
-/

namespace TensorBind

namespace Decimal

variable {whole fraction digits : List Char}

/-! ## Digits -/

theorem isDigit_iff {c : Char} : isDigit c ↔ isDecimalDigit c := by
  refine ⟨isDecimalDigit_of_isDigit, fun h => ?_⟩
  rw [isDigit, Integer.digit?_eq_some.mpr ⟨h, rfl⟩]
  rfl

/-- Digits are read as they are weighed. -/
theorem valueOf_eq (h : ∀ c ∈ digits, isDecimalDigit c) :
    valueOf digits = Nat.ofDigitChars 10 digits 0 := by
  refine List.foldl_ext _ _ _ fun value c hc => ?_
  rw [Integer.digit?_eq_some.mpr ⟨h c hc, rfl⟩, Option.getD_some]

/-- A number with zeros on both sides is made of digits. -/
theorem isDecimalDigit_zeros (n before after : Nat) :
    ∀ c ∈ List.replicate before '0' ++ (toString n).toList
      ++ List.replicate after '0', isDecimalDigit c := by
  have hzero : ∀ {k : Nat}, ∀ c ∈ List.replicate k '0', isDecimalDigit c := by
    intro k c hc
    rw [(List.mem_replicate.mp hc).2]
    rfl
  rw [List.forall_mem_append, List.forall_mem_append]
  exact ⟨⟨hzero, fun c => Integer.isDecimalDigit_of_mem_toString⟩, hzero⟩

/-- Zeros behind a number multiply it, and zeros in front do nothing. -/
theorem valueOf_zeros (n before after : Nat) :
    valueOf (List.replicate before '0' ++ (toString n).toList
      ++ List.replicate after '0') = n * 10 ^ after := by
  rw [valueOf_eq (isDecimalDigit_zeros n before after),
    Nat.ofDigitChars_append, Nat.ofDigitChars_append,
    Nat.ofDigitChars_replicate_zero, Nat.ofDigitChars_replicate_zero,
    Nat.mul_zero, Nat.toString_eq_ofList_toDigits, String.toList_ofList,
    Nat.ofDigitChars_ten_toDigits, Nat.mul_comm]

/-! ## Reading positional notation -/

/-- Digits are taken up to what is no digit. -/
theorem span_digits {rest : List Char}
    (h : ∀ c ∈ digits, isDecimalDigit c)
    (hrest : rest.head?.any isDigit = false) :
    (digits ++ rest).span isDigit = (digits, rest) := by
  have hdigits : ∀ c ∈ digits, isDigit c := fun c hc =>
    isDigit_iff.mpr (h c hc)
  have htake := Parser.takeWhile_append hdigits hrest
  have hall := List.takeWhile_append_dropWhile (p := isDigit)
    (l := digits ++ rest)
  rw [htake, List.append_cancel_left_eq] at hall
  rw [List.span_eq_takeWhile_dropWhile, htake, hall]

/-- Digits alone. -/
theorem read?_digits (h : ∀ c ∈ digits, isDecimalDigit c)
    (hne : digits ≠ []) :
    read? digits = some ⟨valueOf digits, 0⟩ := by
  have hspan : (digits ++ []).span isDigit = (digits, []) := span_digits h rfl
  rw [List.append_nil] at hspan
  unfold read?
  rw [hspan]
  simp [splitFraction, readScale?, hne]

/-- Digits with a point among them. -/
theorem read?_point (hwhole : ∀ c ∈ whole, isDecimalDigit c)
    (hfraction : ∀ c ∈ fraction, isDecimalDigit c) (hne : whole ≠ []) :
    read? (whole ++ '.' :: fraction)
      = some ⟨valueOf (whole ++ fraction), -fraction.length⟩ := by
  have hsplit : (fraction ++ []).span isDigit = (fraction, []) :=
    span_digits hfraction rfl
  rw [List.append_nil, show fraction.span isDigit
    = splitFraction ('.' :: fraction) from rfl] at hsplit
  unfold read?
  rw [span_digits hwhole rfl]
  simp [hsplit, readScale?, hne]

/-- The layout of a decimal without a fraction. -/
theorem toList_positional_ofNat (coefficient p : Nat) :
    (positional ⟨coefficient, .ofNat p⟩).toList
      = List.replicate 0 '0' ++ (toString coefficient).toList
        ++ List.replicate (if coefficient = 0 then 0 else p) '0' := by
  simp only [positional, digits, zeros, String.toList_append,
    String.toList_ofList, List.replicate_zero, List.nil_append]

/-- The layout of a decimal with a fraction: its digits on both sides of the
point, with a zero in front of the point and as many behind it as are
missing. -/
theorem toList_positional_negSucc (coefficient p : Nat) :
    ∃ whole fraction before,
      (positional ⟨coefficient, .negSucc p⟩).toList = whole ++ '.' :: fraction
      ∧ whole ≠ [] ∧ fraction.length = p + 1
      ∧ whole ++ fraction
        = List.replicate before '0' ++ (toString coefficient).toList
          ++ List.replicate 0 '0' := by
  set chars := (toString coefficient).toList with hchars
  simp only [positional, digits, ← hchars]
  split
  · rename_i hlong
    refine ⟨chars.take (chars.length - (p + 1)),
      chars.drop (chars.length - (p + 1)), 0, ?_, ?_, ?_, ?_⟩
    · simp
    · intro hnil
      have hlength := congrArg List.length hnil
      rw [List.length_take, List.length_nil] at hlength
      omega
    · rw [List.length_drop]
      omega
    · simp
  · rename_i hshort
    refine ⟨['0'], List.replicate (p + 1 - chars.length) '0' ++ chars,
      p + 1 - chars.length + 1, ?_, List.cons_ne_nil _ _, ?_, ?_⟩
    · rw [String.toList_append, String.toList_append, ← hchars, zeros,
        String.toList_ofList, List.append_assoc]
      simp
    · rw [List.length_append, List.length_replicate]
      omega
    · simp [List.replicate_succ]

/-- **Positional notation reads as a decimal of the same value**, and it
begins with a digit. -/
theorem read?_positional (d : Decimal) :
    (∃ e, read? d.positional.toList = some e ∧ e.value = d.value)
      ∧ ∃ c rest, d.positional.toList = c :: rest ∧ isDecimalDigit c := by
  obtain ⟨coefficient, exponent⟩ := d
  cases exponent with
  | ofNat p =>
    have htext := toList_positional_ofNat coefficient p
    set after := if coefficient = 0 then 0 else p with hafter
    have hdigits := isDecimalDigit_zeros coefficient 0 after
    rw [← htext] at hdigits
    obtain ⟨c, rest, hfirst, -⟩ := Integer.exists_digit_toString coefficient
    have hcons : (positional ⟨coefficient, .ofNat p⟩).toList
        = c :: (rest ++ List.replicate after '0') := by
      rw [htext, hfirst, List.replicate_zero, List.nil_append,
        List.cons_append]
    refine ⟨⟨_, read?_digits hdigits (hcons ▸ List.cons_ne_nil _ _), ?_⟩,
      c, _, hcons, hdigits c (hcons ▸ List.mem_cons_self)⟩
    rw [htext, valueOf_zeros]
    show ((coefficient * 10 ^ after : Nat) : ℚ) * 10 ^ (0 : ℤ)
      = coefficient * 10 ^ (p : ℤ)
    rw [zpow_zero, mul_one, zpow_natCast]
    push_cast
    rw [hafter]
    split
    · rename_i hzero
      rw [hzero, Nat.cast_zero, zero_mul, zero_mul]
    · rfl
  | negSucc p =>
    obtain ⟨whole, fraction, before, htext, hne, hlength, hall⟩ :=
      toList_positional_negSucc coefficient p
    have hdigits := isDecimalDigit_zeros coefficient before 0
    rw [← hall, List.forall_mem_append] at hdigits
    obtain ⟨c, rest, rfl⟩ := List.exists_cons_of_ne_nil hne
    refine ⟨⟨_, by rw [htext, read?_point hdigits.1 hdigits.2 hne], ?_⟩,
      c, _, htext, hdigits.1 c List.mem_cons_self⟩
    rw [hall, valueOf_zeros, hlength, pow_zero, Nat.mul_one]
    rfl

end Decimal

/-! ## Signs and magnitudes -/

theorem Format.infinity_lt (F : Format) :
    F.infinity < 2 ^ F.magnitudeBits := by
  have hpos : 0 < 2 ^ F.exponentBits := Nat.two_pow_pos _
  rw [Format.infinity, Format.magnitudeBits, Nat.pow_add,
    Nat.mul_lt_mul_right (Nat.two_pow_pos _)]
  omega

theorem Format.nearest_lt (F : Format) (num den : Nat) :
    F.nearest num den < 2 ^ F.magnitudeBits :=
  (Nat.min_le_left _ _).trans_lt F.infinity_lt

namespace Binary

variable {F G : Format} {x : Binary F} {negative : Bool} {field : Nat}

/-- The bits of a number with a sign and a magnitude. -/
theorem toBits_ofMagnitude (h : field < 2 ^ F.magnitudeBits) :
    (ofMagnitude F negative field).toBits
      = (if negative then 2 ^ F.magnitudeBits else 0) + field := by
  rw [ofMagnitude, ofBits, toBits, BitVec.toNat_ofNat, Format.width,
    Nat.pow_succ]
  refine Nat.mod_eq_of_lt ?_
  split <;> omega

theorem magnitude_ofMagnitude (h : field < 2 ^ F.magnitudeBits) :
    (ofMagnitude F negative field).magnitude = field := by
  rw [magnitude, toBits_ofMagnitude h]
  split
  · rw [Nat.add_mod_left, Nat.mod_eq_of_lt h]
  · rw [Nat.zero_add, Nat.mod_eq_of_lt h]

theorem negative_ofMagnitude (h : field < 2 ^ F.magnitudeBits) :
    (ofMagnitude F negative field).negative = negative := by
  unfold Binary.negative
  rw [toBits_ofMagnitude h]
  cases negative with
  | true => simp
  | false => simp [h]

/-- **A number is its sign and its magnitude.** -/
theorem ofMagnitude_eq (x : Binary F) :
    ofMagnitude F x.negative x.magnitude = x := by
  have hbits : x.toBits < 2 ^ F.magnitudeBits * 2 := by
    rw [← Nat.pow_succ]
    exact x.bits.isLt
  refine (congrArg (ofBits F) ?_).trans x.ofBits_toBits
  unfold Binary.negative magnitude
  by_cases hsign : 2 ^ F.magnitudeBits ≤ x.toBits
  · rw [decide_eq_true hsign, if_pos rfl, Nat.mod_eq_sub_mod hsign,
      Nat.mod_eq_of_lt (by omega)]
    omega
  · rw [decide_eq_false hsign, if_neg Bool.false_ne_true,
      Nat.mod_eq_of_lt (Nat.lt_of_not_le hsign), Nat.zero_add]

/-- A magnitude below infinity is neither infinite nor a NaN. -/
theorem finite_of_lt (h : x.magnitude < F.infinity) :
    ¬x.isNaN ∧ ¬x.isInfinite := by
  unfold isNaN isInfinite
  rw [decide_eq_true_eq, decide_eq_true_eq]
  omega

theorem magnitude_le (h : ¬x.isNaN) : x.magnitude ≤ F.infinity := by
  unfold isNaN at h
  rw [decide_eq_true_eq] at h
  exact Nat.le_of_not_lt h

theorem not_isNaN_of_isInfinite (h : x.isInfinite) : ¬x.isNaN := by
  unfold isInfinite at h
  unfold isNaN
  rw [decide_eq_true_eq] at h ⊢
  exact Nat.not_lt_of_le h.le

/-! ## Plain texts -/

/-- A text that begins with neither sign is read without one. -/
theorem read?_unsigned {c : Char} {rest : List Char} (hminus : c ≠ '-')
    (hplus : c ≠ '+') :
    read? G (c :: rest)
      = (readMagnitude? G (c :: rest)).map (ofMagnitude G false) := by
  unfold read?
  split
  · rename_i heq
    exact absurd (List.cons.inj heq).1 hminus
  · rename_i heq
    exact absurd (List.cons.inj heq).1 hplus
  · rfl

/-- **The sign of a plain text** is read as the sign of the number. -/
theorem read?_render {layout : Decimal → String} {c : Char}
    {rest : List Char} {body : String} (hnumber : ¬x.isNaN)
    (hbody : body = if x.isInfinite then "inf"
      else layout (F.shortest x.magnitude))
    (hfirst : body.toList = c :: rest) (hminus : c ≠ '-') (hplus : c ≠ '+') :
    read? G (x.render layout).toList
      = (readMagnitude? G body.toList).map (ofMagnitude G x.negative) := by
  unfold render
  rw [if_neg hnumber, ← hbody, String.toList_append]
  cases x.negative with
  | true => rfl
  | false =>
    rw [if_neg Bool.false_ne_true, String.toList_empty, List.nil_append,
      hfirst, read?_unsigned hminus hplus]

/-- The plain text of an infinity. -/
theorem read?_plain_of_infinite (G : Format) (h : x.isInfinite) :
    read? G x.plain.toList = some (infinite G x.negative) := by
  rw [plain, read?_render (not_isNaN_of_isInfinite h) (if_pos h).symm rfl
    (by decide) (by decide)]
  rfl

/-- **The plain text of a finite number** is read as what the shortest
decimal rounds to. -/
theorem read?_plain_of_finite (hG : G.Ample) (h : x.magnitude < F.infinity)
    (hfield : G.RoundsTo (F.shortest x.magnitude).value field) :
    read? G x.plain.toList
      = some (ofMagnitude G x.negative (Min.min G.infinity field)) := by
  obtain ⟨hnumber, hfinite⟩ := finite_of_lt h
  obtain ⟨⟨e, hread, hvalue⟩, c, rest, hfirst, hdigit⟩ :=
    (F.shortest x.magnitude).read?_positional
  obtain ⟨hminus, hplus⟩ := Integer.ne_sign_of_isDecimalDigit hdigit
  rw [plain, read?_render hnumber (if_neg hfinite).symm hfirst hminus hplus,
    readMagnitude?, hread]
  dsimp only
  rw [← hvalue] at hfield
  rw [Decimal.nearest_eq hG hfield]
  rfl

/-- **The plain text of a number reads back.** -/
theorem read?_plain (hF : F.Ample) (h : ¬x.isNaN) :
    read? F x.plain.toList = some x := by
  have hle := magnitude_le h
  rcases hle.lt_or_eq with hlt | heq
  · rw [read?_plain_of_finite hF hlt (F.roundsTo_shortest hF hlt),
      Nat.min_eq_right hle, x.ofMagnitude_eq]
  · rw [read?_plain_of_infinite F (decide_eq_true heq), infinite, ← heq,
      x.ofMagnitude_eq]

end Binary

end TensorBind
